import RtpMux.ExpiryWorker
import RtpMux.LaneRejection
import RtpMux.LaneStep
import Mathlib.Algebra.BigOperators.Group.Multiset.Basic

/-!
# One lane, one outcome

Who decides about a lane depends on where the lane is: its own accept task, the task of its
partner, which may take it out of the registry and put it back, or the expiry worker.

The argument is conservation. `LaneServer.holding` collects the lanes from every place
one can sit in without being decided: its task, the task that holds it as a partner, a
ready entry, a record of the worker. Every decision takes a lane from there and adds it to
the outcomes, so that what is held and what is decided are together the accepted lanes,
each once (`OutcomeInv`).

One step breaks this. A building entry stands for a lane whose task is still at work on
it. When `expire` removes such an entry, the worker records the lane as a pairing timeout,
and its task, which finds the reservation gone, records it again
(`lane_recorded_twice`). In runs in which no building entry expires, every lane has one
outcome (`one_lane_one_outcome`).
-/

namespace RtpMux

open PendingLaneRegistry LaneServer

/-! ## The condition on runs -/

/-- No building entry expires in this step. -/
def LaneOutcomes.expiresNoBuilding (o : LaneOutcomes) : OutcomeEvent → Bool
  | .lane (.expire now) _ =>
    o.server.registry.entries.entries.all fun e =>
      match e.2 with
      | .building _ _ _ _ expiresAt _ _ => now < expiresAt
      | .ready _ _ => true
  | _ => true

/-! ## Where an undecided lane can be -/

/-- The lanes the task of `lane` has to find an outcome for. A reservation is not among
them: the lane of a building entry is still its task's. -/
def LanePhase.lanes (lane : LaneId) : LanePhase → Multiset LaneId
  | greeting _ => {lane}
  | admitted _ => {lane}
  | reserved => {lane}
  | cancelling => {lane}
  | built => {lane}
  | waiting _ _ _ _ _ => {lane}
  | offered _ other _ => {lane} + {other.supervisor}
  | restoring _ other _ => {lane} + {other.supervisor}
  | _ => 0

/-- The lane that a ready entry keeps. -/
def PendingLaneEntry.lanes : PendingLaneEntry → Multiset LaneId
  | building _ _ _ _ _ _ _ => 0
  | ready lane _ => {lane.supervisor}

/-- The lane that an expired record keeps. -/
def ExpiredPendingLane.lanes : ExpiredPendingLane → Multiset LaneId
  | building _ _ _ _ _ => 0
  | ready _ lane => {lane.supervisor}

/-- The lanes that are kept in the registry. -/
def PendingLaneRegistry.lanes (reg : PendingLaneRegistry) : Multiset LaneId :=
  reg.entries.total PendingLaneEntry.lanes

/-- The lanes that their accept tasks have not settled. -/
def LaneServer.taskLanes (s : LaneServer) : Multiset LaneId :=
  s.tasks.tally fun lane t => t.phase.lanes lane

/-- The lanes of the expired records that the worker still holds. -/
def ExpiryWorker.lanes (w : ExpiryWorker) : Multiset LaneId :=
  (w.removed.map ExpiredPendingLane.lanes).sum

/-- Every lane without an outcome. -/
def LaneServer.holding (s : LaneServer) : Multiset LaneId :=
  s.taskLanes + s.registry.lanes + s.worker.lanes

/-- The lanes accepted so far. -/
def LaneServer.accepted (s : LaneServer) : Multiset LaneId := s.tasks.tally fun lane _ => {lane}

/-- The lanes a step decides about. -/
def Disposal.lanes (d : Disposal) : Multiset LaneId :=
  (d.owes.map OwedRecord.lane : Multiset LaneId) + (d.records.map Prod.fst : Multiset LaneId) +
    (d.pairs.flatMap fun p => [p.1, p.2] : List LaneId)

@[simp] theorem Disposal.lanes_none : Disposal.none.lanes = 0 := rfl

@[simp] theorem Disposal.lanes_reject (lane : LaneId) (context : RejectedLaneContext) :
    (Disposal.reject lane context).lanes = {lane} := rfl

@[simp] theorem Disposal.lanes_record (lane : LaneId) (context : RejectedLaneContext) :
    (Disposal.record lane context).lanes = {lane} := rfl

@[simp] theorem Disposal.lanes_pair (lane other : LaneId) :
    (Disposal.pair lane other).lanes = {lane} + {other} := rfl

/-- What a step does to the lanes: those it decides about are held no longer, and `fresh`
are accepted. -/
structure Settles (s s' : LaneServer) (d : Disposal) (fresh : Multiset LaneId) : Prop where
  holding : s'.holding + d.lanes = s.holding + fresh
  accepted : s'.accepted = s.accepted + fresh

/-- A step of one task, against what it does to the registry. -/
theorem Settles.exchange {s s' : LaneServer} {lane : LaneId} {t t' : LaneTask} {d : Disposal}
    (ht : s.tasks.lookup lane = some t) (htasks : s'.tasks = s.tasks.insert lane t')
    (hworker : s'.worker = s.worker)
    (hreg : s'.registry.lanes + t'.phase.lanes lane + d.lanes =
      s.registry.lanes + t.phase.lanes lane) : Settles s s' d 0 := by
  have htask := HashMap.tally_insert (f := fun lane (t : LaneTask) => t.phase.lanes lane) t' ht
  have hacc := HashMap.tally_insert (f := fun lane (_ : LaneTask) => ({lane} : Multiset LaneId))
    t' ht
  refine ⟨?_, ?_⟩
  · simp only [LaneServer.holding, taskLanes, htasks, hworker, add_zero]
    ext x
    have h1 := congrArg (Multiset.count x) htask
    have h2 := congrArg (Multiset.count x) hreg
    simp only [Multiset.count_add] at h1 h2 ⊢
    omega
  · simp only [LaneServer.accepted, htasks, add_zero]
    exact add_left_cancel hacc

/-- A step of one task that leaves the registry's lanes alone. -/
theorem Settles.move {s s' : LaneServer} {lane : LaneId} {t t' : LaneTask} {d : Disposal}
    (ht : s.tasks.lookup lane = some t) (htasks : s'.tasks = s.tasks.insert lane t')
    (hworker : s'.worker = s.worker) (hentries : s'.registry.entries = s.registry.entries)
    (hphase : t'.phase.lanes lane + d.lanes = t.phase.lanes lane) : Settles s s' d 0 := by
  refine .exchange ht htasks hworker ?_
  rw [PendingLaneRegistry.lanes, hentries, add_assoc, hphase]
  rfl

/-- A step that touches no task. -/
theorem Settles.worker {s s' : LaneServer} {d : Disposal} (htasks : s'.tasks = s.tasks)
    (hlanes : s'.registry.lanes + s'.worker.lanes + d.lanes = s.registry.lanes + s.worker.lanes) :
    Settles s s' d 0 := by
  refine ⟨?_, ?_⟩
  · simp only [LaneServer.holding, taskLanes, htasks, add_zero]
    rw [add_assoc, add_assoc, ← add_assoc s'.registry.lanes, hlanes, ← add_assoc]
  · simp only [LaneServer.accepted, htasks, add_zero]

/-- The lanes of an entry leave the registry with it. -/
theorem lanes_erase {reg : PendingLaneRegistry} {nonce : PairingNonce}
    {entry : PendingLaneEntry} (h : reg.entries.lookup nonce = some entry) :
    entry.lanes + ({ reg with entries := reg.entries.erase nonce } : PendingLaneRegistry).lanes =
      reg.lanes :=
  HashMap.total_erase (f := PendingLaneEntry.lanes) h

/-- A new entry brings its lanes to the registry. -/
theorem lanes_insert {reg : PendingLaneRegistry} {nonce : PairingNonce}
    (entry : PendingLaneEntry) (h : reg.entries.lookup nonce = none) :
    ({ reg with entries := reg.entries.insert nonce entry } : PendingLaneRegistry).lanes =
      entry.lanes + reg.lanes :=
  HashMap.total_insert_new (f := PendingLaneEntry.lanes) entry h

/-- Replacing the entry of a nonce exchanges the lanes. -/
theorem lanes_rebuild {reg : PendingLaneRegistry} {nonce : PairingNonce}
    {entry : PendingLaneEntry} (entry' : PendingLaneEntry)
    (h : reg.entries.lookup nonce = some entry) :
    entry.lanes + ({ reg with entries := (reg.entries.erase nonce).insert nonce entry' } :
      PendingLaneRegistry).lanes = entry'.lanes + reg.lanes := by
  have hfree : ({ reg with entries := reg.entries.erase nonce } :
      PendingLaneRegistry).entries.lookup nonce = none := by simp
  rw [← lanes_erase h]
  have hnew := lanes_insert entry' hfree
  simp only at hnew
  rw [hnew]
  exact add_left_comm _ _ _

/-- A permit that is dropped changes no lane. -/
@[simp] theorem lanes_dropPermit (reg : PendingLaneRegistry) (permit : PendingLanePermit) :
    (reg.dropPermit permit).lanes = reg.lanes := by
  rw [PendingLaneRegistry.lanes, dropPermit_entries]
  rfl

/-! ## Every step decides about the lanes it lets go -/

section Steps

-- every step below unfolds these
attribute [local simp] LaneServer.disposal disposalOf taskDisposal LanePhase.lanes

variable {s s' : LaneServer} {lane : LaneId} {detail : Detail}

/-- A lane that is accepted is either held or refused. -/
theorem settles_accept {expectedClass : LaneClass} {peer localAddr : SocketAddr}
    (h : s.step (.accept lane expectedClass peer localAddr) = some s') :
    Settles s s' (s.disposal detail (.accept lane expectedClass peer localAddr)) {lane} := by
  have hacc : ∀ {t}, s.tasks.lookup lane = none →
      HashMap.tally (fun lane _ => ({lane} : Multiset LaneId)) (s.tasks.insert lane t) =
        s.accepted + {lane} := by
    intro t hnew
    rw [HashMap.tally_insert_new t hnew, add_comm]
    rfl
  simp only [LaneServer.step, handleLaneAccept] at h
  split at h
  · cases h
  rename_i hnew
  replace hnew : s.tasks.lookup lane = none := AList.lookup_eq_none.mpr hnew
  simp only [LaneServer.disposal]
  split at h
  · rename_i permit reg hadm
    cases h
    rw [hadm]
    obtain ⟨-, -, rfl, rfl⟩ := tryAdmit_ok hadm
    refine ⟨?_, hacc hnew⟩
    simp only [LaneServer.holding, taskLanes, HashMap.tally_insert_new _ hnew, LanePhase.lanes,
      Disposal.lanes_none, add_zero, PendingLaneRegistry.lanes]
    ac_rfl
  · rename_i reason hadm
    cases h
    rw [hadm]
    refine ⟨?_, hacc hnew⟩
    simp only [LaneServer.holding, taskLanes, HashMap.tally_insert_new _ hnew, LanePhase.lanes,
      Disposal.lanes_record, zero_add]

/-- A lane whose hello fails is owed a record. -/
theorem settles_helloFailed (h : s.step (.helloFailed lane) = some s') :
    Settles s s' (s.disposal detail (.helloFailed lane)) 0 := by
  simp only [LaneServer.step, readLaneHello] at h
  split at h
  · rename_i t ht
    split at h
    · rename_i hn
      cases hn
    · rename_i permit hph _
      cases h
      refine .move ht rfl rfl rfl ?_
      simp only [LaneServer.disposal, disposalOf, ht, hph]
      cases detail <;> rfl
    · cases h
  · cases h

/-- A hello moves its lane on, or costs it a record. -/
theorem settles_hello {hello : Hello} (h : s.step (.hello lane hello) = some s') :
    Settles s s' (s.disposal detail (.hello lane hello)) 0 := by
  simp only [LaneServer.step, readLaneHello] at h
  split at h
  · rename_i t ht
    split at h
    · rename_i permit h' hph heq
      cases heq
      split at h
      · rename_i hclass
        cases h
        refine .move ht rfl rfl rfl ?_
        simp only [LaneServer.disposal, disposalOf, ht, taskDisposal, if_pos hclass, hph]
        rfl
      · rename_i hclass
        cases h
        refine .move ht rfl rfl rfl ?_
        simp only [LaneServer.disposal, disposalOf, ht, taskDisposal, if_neg hclass, hph]
        rfl
    · rename_i hn
      cases hn
    · cases h
  · cases h

/-- A lane whose group is full is owed a record. -/
theorem settles_groupFull (h : s.step (.groupFull lane) = some s') :
    Settles s s' (s.disposal detail (.groupFull lane)) 0 := by
  simp only [LaneServer.step, rejectGroupFull] at h
  split at h
  · rename_i t ht
    split at h
    · rename_i permit hph
      cases h
      refine .move ht rfl rfl rfl ?_
      simp only [LaneServer.disposal, disposalOf, ht, hph]
      rfl
    · cases h
  · cases h

/-- A lane that registers waits, pairs, or is owed a record. -/
theorem settles_register {now : Instant} (h : s.step (.register lane now) = some s') :
    Settles s s' (s.disposal detail (.register lane now)) 0 := by
  -- the four answers of the registration, by its cases lemma
  simp only [LaneServer.step, LaneServer.register] at h
  split at h
  · rename_i t ht
    split at h
    · rename_i permit hh hph hhello
      split at h
      · rename_i left reg hreg
        cases h
        simp only [LaneServer.disposal, disposalOf, ht, taskDisposal, hph, hhello, hreg]
        obtain ⟨_, hn, _⟩ | ⟨_, _, _, _, _, _, _, _, _, hn, _⟩ | ⟨_, _, _, _, _, _, hn, _⟩ |
          ⟨hfree, -, rfl⟩ := registerAdmitted_cases hreg
        · cases hn
        · cases hn
        · cases hn
        · refine .exchange ht rfl rfl ?_
          rw [hph]
          simp only [setPhase, lanes_insert _ hfree, PendingLaneEntry.lanes, LanePhase.lanes,
            Disposal.lanes_none, zero_add, add_zero]
      · rename_i changed expiresAt left reg hreg
        cases h
        simp only [LaneServer.disposal, disposalOf, ht, taskDisposal, hph, hhello, hreg]
        obtain ⟨_, hn, _⟩ | ⟨_, _, _, _, _, _, _, _, _, _, rfl⟩ | ⟨_, _, _, _, _, _, hn, _⟩ |
          ⟨_, hn, _⟩ := registerAdmitted_cases hreg
        · cases hn
        · refine .move ht rfl rfl rfl ?_
          rw [hph]
          rfl
        · cases hn
        · cases hn
      · rename_i other expiresAt left reg hreg
        cases h
        simp only [LaneServer.disposal, disposalOf, ht, taskDisposal, hph, hhello, hreg]
        obtain ⟨_, hn, _⟩ | ⟨_, _, _, _, _, _, _, _, _, hn, _⟩ | ⟨_, _, hentry, _, _, _, hn, rfl⟩ |
          ⟨_, hn, _⟩ := registerAdmitted_cases hreg
        · cases hn
        · cases hn
        · cases hn
          refine .exchange ht rfl rfl ?_
          rw [hph, ← lanes_erase hentry]
          simp only [setPhase, LanePhase.lanes, PendingLaneEntry.lanes, Disposal.lanes_none]
          ac_rfl
        · cases hn
      · rename_i reason left reg hreg
        cases h
        simp only [LaneServer.disposal, disposalOf, ht, taskDisposal, hph, hhello, hreg]
        obtain ⟨_, _, rfl⟩ | ⟨_, _, _, _, _, _, _, _, _, hn, _⟩ | ⟨_, _, _, _, _, _, hn, _⟩ |
          ⟨_, hn, _⟩ := registerAdmitted_cases hreg
        · refine .move ht rfl rfl rfl ?_
          rw [hph]
          rfl
        · cases hn
        · cases hn
        · cases hn
      · cases h
    · cases h
  · cases h

/-- A birth heartbeat leaves its lane held, or costs it a record. -/
theorem settles_heartbeat {ok : Bool} (h : s.step (.heartbeat lane ok) = some s') :
    Settles s s' (s.disposal detail (.heartbeat lane ok)) 0 := by
  simp only [LaneServer.step, writeBirthHeartbeat] at h
  split at h
  · rename_i t ht
    split at h
    · rename_i hph
      cases h
      refine .move ht rfl rfl rfl ?_
      simp only [LaneServer.disposal, disposalOf, ht, taskDisposal, hph]
      cases ok <;> rfl
    · rename_i permit changed seen expiresAt hph
      cases h
      refine .move ht rfl rfl rfl ?_
      simp only [LaneServer.disposal, disposalOf, ht, taskDisposal, hph]
      cases ok <;> rfl
    · rename_i permit other expiresAt hph
      cases h
      refine .move ht rfl rfl rfl ?_
      simp only [LaneServer.disposal, disposalOf, ht, taskDisposal, hph]
      cases ok <;> rfl
    · cases h
  · cases h

/-- A cancelled reservation costs its lane a record. -/
theorem settles_cancel (h : s.step (.cancel lane) = some s') :
    Settles s s' (s.disposal detail (.cancel lane)) 0 := by
  simp only [LaneServer.step, LaneServer.cancel] at h
  split at h
  · rename_i t ht
    split at h
    · rename_i hh hph hhello
      split at h
      · rename_i entry reg hcancel
        cases h
        obtain ⟨_, _, _, _, _, rfl, hentry, rfl⟩ := cancelReservation_some hcancel
        refine .exchange ht rfl rfl ?_
        simp only [LaneServer.disposal, disposalOf, ht, taskDisposal, hph, ← lanes_erase hentry,
          setPhase, LanePhase.lanes, PendingLaneEntry.lanes, zero_add, add_zero,
          Disposal.lanes_reject]
      · rename_i reg hcancel
        cases h
        obtain rfl := cancelReservation_none hcancel
        refine .move ht rfl rfl rfl ?_
        simp only [LaneServer.disposal, disposalOf, ht, hph]
        rfl
    · cases h
  · cases h

/-- A confirmed entry holds its lane on. -/
theorem settles_confirm (h : s.step (.confirm lane) = some s') :
    Settles s s' (s.disposal detail (.confirm lane)) 0 := by
  simp only [LaneServer.step, LaneServer.confirm] at h
  split at h
  · rename_i t ht
    split at h
    · rename_i hh hph hhello
      split at h
      · rename_i changed reg hconfirm
        cases h
        simp only [LaneServer.disposal, disposalOf, ht, taskDisposal, hhello, hconfirm]
        obtain ⟨_, _, _, _, hentry, rfl⟩ := confirmReservation_ok hconfirm
        refine .exchange ht rfl rfl ?_
        have hnew := fun other due => lanes_rebuild (.ready other due) hentry
        simp only [PendingLaneEntry.lanes, zero_add] at hnew
        rw [hph]
        simp only [setPhase, hnew, LanePhase.lanes, add_zero, Disposal.lanes_none]
        exact add_comm _ _
      · rename_i back reg hconfirm
        cases h
        simp only [LaneServer.disposal, disposalOf, ht, taskDisposal, hhello, hconfirm]
        have hsame : reg.lanes = s.registry.lanes := by
          obtain rfl | ⟨entry, hentry, rfl⟩ := (confirmReservation_error hconfirm).2
          · rfl
          · exact add_left_cancel (lanes_rebuild entry hentry)
        refine .exchange ht rfl rfl ?_
        rw [hph]
        simp only [setPhase, hsame, LanePhase.lanes, add_zero, Disposal.lanes_reject]
    · cases h
  · cases h

/-- What the waiter does with one answer, in either of its two calls. -/
theorem settles_afterPoll {t : LaneTask} {h : Hello} {permit : PendingLanePermit}
    {again : LanePhase} {last : Bool} {expiresAt now : Instant}
    (ht : s.tasks.lookup lane = some t) (hph : t.phase.lanes lane = {lane})
    (hagain : again.lanes lane + (if last then {lane} else 0) = {lane}) :
    Settles s
      (s.afterPoll lane t permit again
        (s.registry.pairWaitStep h.nonce h.laneClass t.peer expiresAt now))
      (pollDisposal lane t last
        (s.registry.pairWaitStep h.nonce h.laneClass t.peer expiresAt now).1) 0 := by
  obtain ⟨other, expiresAt', hentry, hip, hclass, hpoll⟩ | hpoll | ⟨_, hpoll⟩ | ⟨hpoll, -⟩ :=
    pairWaitStep_cases s.registry h.nonce h.laneClass t.peer expiresAt now
  · rw [hpoll]
    refine .exchange ht rfl rfl ?_
    rw [hph, ← lanes_erase hentry]
    simp only [setPhase, afterPoll, pollDisposal, LanePhase.lanes, PendingLaneEntry.lanes,
      Disposal.lanes_pair, add_zero]
    ac_rfl
  · rw [hpoll]
    refine .move ht rfl rfl rfl ?_
    rw [hph]
    rfl
  · rw [hpoll]
    refine .move ht rfl rfl rfl ?_
    rw [hph]
    rfl
  · rw [hpoll]
    refine .move ht rfl rfl rfl ?_
    rw [hph, ← hagain]
    cases last <;> rfl

/-- A look at the registry hands a lane over, or leaves it held. -/
theorem settles_poll {now : Instant} (h : s.step (.poll lane now) = some s') :
    Settles s s' (s.disposal detail (.poll lane now)) 0 := by
  simp only [LaneServer.step, LaneServer.poll] at h
  split at h
  · rename_i t ht
    split at h
    · rename_i permit changed seen expiresAt hh hph hhello
      cases h
      simp only [LaneServer.disposal, disposalOf, ht, taskDisposal, hph, hhello]
      refine settles_afterPoll ht ?_ rfl
      rw [hph]
      rfl
    · rename_i permit changed seen expiresAt hh hph hhello
      cases h
      simp only [LaneServer.disposal, disposalOf, ht, taskDisposal, hph, hhello]
      refine settles_afterPoll ht ?_ rfl
      rw [hph]
      rfl
    · cases h
  · cases h

/-- A lane that is put back is held again, or owed a record. -/
theorem settles_reinsert (h : s.step (.reinsert lane) = some s') :
    Settles s s' (s.disposal detail (.reinsert lane)) 0 := by
  simp only [LaneServer.step, LaneServer.reinsert, reinsertReadyLane] at h
  split at h
  · rename_i t ht
    split at h
    · rename_i permit other expiresAt hh hph hhello
      simp only [LaneServer.disposal, disposalOf, ht, taskDisposal, reinsertReadyLane, hph, hhello]
      by_cases hmem : hh.nonce ∈ s.registry.entries
      · simp only [hmem, if_true] at h ⊢
        cases h
        refine .move ht rfl rfl rfl ?_
        rw [hph]
        exact add_comm ({other.supervisor} : Multiset LaneId) {lane}
      · simp only [hmem, if_false] at h ⊢
        cases h
        refine .exchange ht rfl rfl ?_
        rw [hph]
        simp only [setPhase, lanes_insert _ (AList.lookup_eq_none.mpr hmem),
          PendingLaneEntry.lanes, LanePhase.lanes, add_zero]
        have hown : (reinsertDisposal lane t detail (.ok ())).lanes = {lane} := rfl
        rw [hown]
        ac_rfl
    · cases h
  · cases h

/-- A dropped entry settles nothing. -/
theorem settles_dropEntry (h : s.step (.dropEntry lane) = some s') :
    Settles s s' .none 0 := by
  simp only [LaneServer.step, LaneServer.dropEntry] at h
  split at h
  · rename_i t ht
    split at h
    · rename_i hph
      cases h
      refine .move ht rfl rfl rfl ?_
      rw [hph]
      rfl
    · cases h
  · cases h

/-- An announcement settles nothing. -/
theorem settles_announce (h : s.step (.announce lane) = some s') : Settles s s' .none 0 := by
  simp only [LaneServer.step, LaneServer.announce] at h
  split at h
  · rename_i t ht
    split at h
    · rename_i hph
      split at h
      · cases h
        refine .move ht rfl rfl rfl ?_
        rw [hph]
        rfl
      · cases h
    · cases h
  · cases h

/-- A dropped sender settles nothing. -/
theorem settles_dropSender (h : s.step (.dropSender lane) = some s') :
    Settles s s' .none 0 := by
  simp only [LaneServer.step, LaneServer.dropSender] at h
  split at h
  · rename_i t ht
    split at h
    · rename_i hph
      cases h
      refine .move ht rfl rfl rfl ?_
      rw [hph]
      rfl
    · cases h
  · cases h

/-- A waiter that wakes settles nothing. -/
theorem settles_wake (h : s.step (.wake lane) = some s') : Settles s s' .none 0 := by
  simp only [LaneServer.step, LaneServer.wake] at h
  split at h
  · rename_i t ht
    split at h
    · rename_i hph
      split at h
      · cases h
        refine .move ht rfl rfl rfl ?_
        rw [hph]
        rfl
      · cases h
    · cases h
  · cases h

/-- A waiter's timeout settles nothing by itself. -/
theorem settles_timeout {now : Instant} (h : s.step (.timeout lane now) = some s') :
    Settles s s' .none 0 := by
  simp only [LaneServer.step, LaneServer.timeout] at h
  split at h
  · rename_i t ht
    split at h
    · rename_i hph
      split at h
      · cases h
        refine .move ht rfl rfl rfl ?_
        rw [hph]
        rfl
      · cases h
    · cases h
  · cases h

/-- A dropped permit settles nothing. -/
theorem settles_dropPermit (h : s.step (.dropPermit lane) = some s') :
    Settles s s' .none 0 := by
  simp only [LaneServer.step, LaneServer.dropPermit] at h
  split at h
  · rename_i t ht
    split at h
    · rename_i hph
      cases h
      refine .move ht rfl rfl (dropPermit_entries _ _) ?_
      rw [hph]
      rfl
    · rename_i hph
      cases h
      refine .move ht rfl rfl (dropPermit_entries _ _) ?_
      rw [hph]
      rfl
    · cases h
  · cases h

/-- `expire` moves the ready lanes that are due from the entries into the records. -/
theorem lanes_expire (reg : PendingLaneRegistry) (now : Instant) :
    (reg.expire now).2.2.lanes + ((reg.expire now).1.map ExpiredPendingLane.lanes).sum =
      reg.lanes := by
  have hone : ∀ (acc : List ExpiredPendingLane × List LaneId × PendingLaneRegistry) nonce,
      (expireOne acc nonce).2.2.lanes +
          ((expireOne acc nonce).1.map ExpiredPendingLane.lanes).sum =
        acc.2.2.lanes + (acc.1.map ExpiredPendingLane.lanes).sum := by
    rintro ⟨removed, changed, r⟩ nonce
    obtain ⟨changed', heq⟩ := expireOne_eq removed changed r nonce
    rw [heq]
    rcases hentry : r.entries.lookup nonce with _ | entry
    · simp [HashMap.erase_of_lookup_none hentry]
    · have hexp : (entry.expired nonce).lanes = entry.lanes := by
        cases entry <;> rfl
      rw [← lanes_erase hentry]
      simp only [Option.map_some, Option.toList_some, List.map_append, List.map_cons, List.map_nil,
        List.sum_append, List.sum_cons, List.sum_nil, add_zero, hexp]
      ac_rfl
  have hloop : ∀ (nonces : List PairingNonce) acc,
      (nonces.foldl expireOne acc).2.2.lanes +
          ((nonces.foldl expireOne acc).1.map ExpiredPendingLane.lanes).sum =
        acc.2.2.lanes + (acc.1.map ExpiredPendingLane.lanes).sum := by
    intro nonces
    induction nonces with
    | nil => exact fun acc => rfl
    | cons nonce rest ih => exact fun acc => (ih _).trans (hone acc nonce)
  exact (hloop _ _).trans (add_zero _)

/-- The expiry worker takes its entries over with their lanes. -/
theorem settles_expire {now : Instant} (h : s.step (.expire now) = some s') :
    Settles s s' .none 0 := by
  simp only [LaneServer.step, LaneServer.expire] at h
  split at h
  · rename_i hidle
    cases h
    refine .worker rfl ?_
    simp only [hidle, ExpiryWorker.lanes, lanes_expire, Disposal.lanes_none, List.map_nil,
      List.sum_nil]
  · cases h

/-- The senders of the expired entries settle nothing. -/
theorem settles_dropSenders (h : s.step .dropSenders = some s') : Settles s s' .none 0 := by
  simp only [LaneServer.step, LaneServer.dropSenders] at h
  split at h
  · cases h
  · cases h
    exact .worker rfl (add_zero _)

/-- The worker records a ready lane. -/
theorem settles_reap (hready : ∀ expired ∈ s.worker.removed, expired.lanes = {expired.lane})
    (h : s.step .reap = some s') : Settles s s' (s.disposal detail .reap) 0 := by
  simp only [LaneServer.step, LaneServer.reap] at h
  split at h
  · rename_i expired removed hw
    cases h
    refine .worker rfl ?_
    have hone := hready expired (by rw [hw]; exact List.mem_cons_self)
    simp only [LaneServer.disposal, hw, releasePermit, lanes_dropPermit, ExpiryWorker.lanes,
      List.map_cons, List.sum_cons, Disposal.lanes_record, hone]
    ac_rfl
  · cases h

end Steps

/-- The lanes a step accepts. -/
def LaneEvent.fresh : LaneEvent → Multiset LaneId
  | .accept lane _ _ _ => {lane}
  | _ => 0

/-- **Conservation.** Every step decides about exactly the lanes it lets go. -/
theorem LaneServer.settles {s s' : LaneServer} {e : LaneEvent} (detail : Detail)
    (hready : ∀ expired ∈ s.worker.removed, expired.lanes = {expired.lane})
    (h : s.step e = some s') : Settles s s' (s.disposal detail e) e.fresh := by
  cases e with
  | accept lane expectedClass peer localAddr => exact settles_accept h
  | helloFailed lane => exact settles_helloFailed h
  | hello lane hello => exact settles_hello h
  | groupFull lane => exact settles_groupFull h
  | register lane now => exact settles_register h
  | heartbeat lane ok => exact settles_heartbeat h
  | cancel lane => exact settles_cancel h
  | dropEntry lane => exact settles_dropEntry h
  | confirm lane => exact settles_confirm h
  | announce lane => exact settles_announce h
  | dropSender lane => exact settles_dropSender h
  | poll lane now => exact settles_poll h
  | wake lane => exact settles_wake h
  | timeout lane now => exact settles_timeout h
  | reinsert lane => exact settles_reinsert h
  | dropPermit lane => exact settles_dropPermit h
  | expire now => exact settles_expire h
  | dropSenders => exact settles_dropSenders h
  | reap => exact settles_reap hready h

/-! ## The invariant -/

namespace LaneOutcomes

/-- The lanes with an outcome, or with a record about to be made. -/
def decided (o : LaneOutcomes) : Multiset LaneId :=
  Disposal.lanes ⟨o.owed, o.rejections, o.pairs⟩

/-- How often a lane was recorded in the rejection log. -/
def recorded (o : LaneOutcomes) (lane : LaneId) : Nat := (o.rejections.map Prod.fst).count lane

/-- How often a lane was handed to `pair_lanes_inner`. -/
def paired (o : LaneOutcomes) (lane : LaneId) : Nat :=
  (o.pairs.flatMap fun p => [p.1, p.2]).count lane

end LaneOutcomes

/-- What is undecided and what is decided are the accepted lanes, and the expiry worker
holds ready lanes only. -/
structure OutcomeInv (o : LaneOutcomes) : Prop where
  conserved : o.server.holding + o.decided = o.server.accepted
  ready : ∀ expired ∈ o.server.worker.removed, expired.lanes = {expired.lane}

/-- At the start nothing is accepted and nothing decided. -/
theorem OutcomeInv.init : OutcomeInv .init := by
  refine ⟨rfl, ?_⟩
  intro expired hmem
  cases hmem

/-- Adding what a step decides. -/
theorem decided_append (o : LaneOutcomes) (d : Disposal) :
    Disposal.lanes ⟨o.owed ++ d.owes, d.records ++ o.rejections, d.pairs ++ o.pairs⟩ =
      o.decided + d.lanes := by
  simp only [LaneOutcomes.decided, Disposal.lanes, List.map_append, List.flatMap_append,
    ← Multiset.coe_add]
  ac_rfl

/-- Making a record moves it from the owed to the made ones. -/
theorem decided_record {o o' : LaneOutcomes} {task : LaneId} {elapsedMs : Nat}
    (h : o.recordRejectedLane task elapsedMs = some o') :
    o'.server = o.server ∧ o'.decided = o.decided := by
  simp only [LaneOutcomes.recordRejectedLane] at h
  split at h
  · rename_i r hfind
    cases h
    refine ⟨rfl, ?_⟩
    have hperm := (List.perm_cons_erase (List.mem_of_find?_eq_some hfind)).map OwedRecord.lane
    have howed : ((o.owed.map OwedRecord.lane : List LaneId) : Multiset LaneId) =
        r.lane ::ₘ ((o.owed.erase r).map OwedRecord.lane : List LaneId) :=
      Multiset.coe_eq_coe.mpr hperm
    simp only [LaneOutcomes.decided, Disposal.lanes, List.map_cons, ← Multiset.cons_coe, howed,
      ← Multiset.singleton_add]
    ac_rfl
  · cases h

/-- The worker only ever holds what `expire` gave it. -/
theorem removed_of_step {s s' : LaneServer} {e : LaneEvent} (h : s.step e = some s') :
    (∀ expired ∈ s'.worker.removed, expired ∈ s.worker.removed) ∨
      ∃ now, e = .expire now ∧ s'.worker.removed = (s.registry.expire now).1 := by
  cases LaneStep.of_step h with
  | expire => exact .inr ⟨_, rfl, rfl⟩
  | reap hw =>
    left
    intro expired hmem
    rw [hw]
    exact List.mem_cons_of_mem _ hmem
  | _ => exact .inl fun _ hmem => hmem

/-- A step in which no building entry expires keeps the invariant. -/
theorem OutcomeInv.step {o o' : LaneOutcomes} {e : OutcomeEvent} (hinv : OutcomeInv o)
    (hC : o.expiresNoBuilding e = true) (h : o.step e = some o') : OutcomeInv o' := by
  cases e with
  | record task elapsedMs =>
    obtain ⟨hserver, hdecided⟩ := decided_record h
    refine ⟨?_, ?_⟩
    · rw [hserver, hdecided]
      exact hinv.conserved
    · rw [hserver]
      exact hinv.ready
  | lane e detail =>
    obtain ⟨s', hst, rfl⟩ := Option.map_eq_some_iff.mp h
    have hset := o.server.settles detail hinv.ready hst
    refine ⟨?_, ?_⟩
    · -- what the step lets go is what it decides about
      rw [LaneOutcomes.decided, decided_append, hset.accepted, ← hinv.conserved]
      have hhold := hset.holding
      ext x
      have hx := congrArg (Multiset.count x) hhold
      simp only [Multiset.count_add] at hx ⊢
      omega
    · obtain hold | ⟨now, rfl, hnew⟩ := removed_of_step hst
      · exact fun expired hmem => hinv.ready expired (hold expired hmem)
      · intro expired hmem
        simp only [hnew] at hmem
        obtain ⟨nonce, entry, hentry, hdue, rfl⟩ :=
          ((expire_exact o.server.registry now).returned expired).mp hmem
        cases entry with
        | ready lane expiresAt => rfl
        | building peer localAddr laneClass group expiresAt changed permit =>
          simp only [LaneOutcomes.expiresNoBuilding, List.all_eq_true] at hC
          have hlater := hC _ (HashMap.lookup_eq_some_iff.mp hentry)
          simp only [decide_eq_true_eq] at hlater
          exact absurd hdue (Nat.not_le_of_lt hlater)

/-- The balance holds in every run in which no reservation expires while it is built. -/
theorem outcomeInv_of_reaches {o : LaneOutcomes}
    (h : laneOutcomes.ReachesWhere (fun o e => o.expiresNoBuilding e = true) o) : OutcomeInv o :=
  h.invariant OutcomeInv.init fun _ _ _ ho hC hst => ho.step hC hst

/-! ## One outcome -/

/-- The accept task has returned. -/
def LanePhase.ended : LanePhase → Bool
  | settled => true
  | paired [] => true
  | rejecting [] => true
  | _ => false

/-- Every accept task has ended: none is at work, and none has a record to make. -/
def LaneOutcomes.Ended (o : LaneOutcomes) : Prop :=
  (∀ lane t, o.server.tasks.lookup lane = some t → t.phase.ended = true) ∧ o.owed = []

/-- A task that has ended holds no lane. -/
theorem LanePhase.lanes_of_ended {φ : LanePhase} (h : φ.ended = true) (lane : LaneId) :
    φ.lanes lane = 0 := by
  cases φ <;> first | rfl | simp [LanePhase.ended] at h

/-- The accepted lanes are those that have a task. -/
theorem accepted_eq_keys (s : LaneServer) : s.accepted = (s.tasks.keys : Multiset LaneId) := by
  have hlist : ∀ l : List (Sigma fun _ : LaneId => LaneTask),
      (l.map fun e => ({e.1} : Multiset LaneId)).sum = (l.keys : Multiset LaneId) := by
    intro l
    induction l with
    | nil => rfl
    | cons e l ih =>
      simp only [List.map_cons, List.sum_cons, ih, List.keys_cons, ← Multiset.cons_coe,
        Multiset.singleton_add]
  exact hlist s.tasks.entries

/-- A lane is accepted once. -/
theorem count_accepted (s : LaneServer) (lane : LaneId) :
    s.accepted.count lane = if lane ∈ s.tasks then 1 else 0 := by
  rw [accepted_eq_keys, Multiset.coe_count]
  split
  · rename_i hmem
    exact List.count_eq_one_of_mem s.tasks.keys_nodup hmem
  · rename_i hmem
    exact List.count_eq_zero_of_not_mem hmem

/-- A decided lane is owed a record, recorded or paired. -/
theorem count_decided (o : LaneOutcomes) (lane : LaneId) :
    o.decided.count lane =
      (o.owed.map OwedRecord.lane).count lane + o.recorded lane + o.paired lane := by
  simp only [LaneOutcomes.decided, Disposal.lanes, Multiset.count_add, Multiset.coe_count,
    LaneOutcomes.recorded, LaneOutcomes.paired]

/-- When the tasks have ended, only the registry and the worker hold lanes. -/
theorem holding_of_ended {o : LaneOutcomes} (hinv : OutcomeInv o) (hended : o.Ended) :
    o.server.holding = o.server.registry.lanes +
      (o.server.worker.removed.map ExpiredPendingLane.lane : List LaneId) := by
  have htasks : o.server.taskLanes = 0 := by
    refine List.sum_eq_zero fun held hheld => ?_
    obtain ⟨⟨lane, t⟩, hmem, rfl⟩ := List.mem_map.mp hheld
    have hend := hended.1 lane t (HashMap.lookup_eq_some_iff.mpr hmem)
    exact LanePhase.lanes_of_ended hend lane
  have hworker : ∀ removed : List ExpiredPendingLane,
      (∀ expired ∈ removed, expired.lanes = {expired.lane}) →
      (removed.map ExpiredPendingLane.lanes).sum =
        ((removed.map ExpiredPendingLane.lane : List LaneId) : Multiset LaneId) := by
    intro removed
    induction removed with
    | nil => exact fun _ => rfl
    | cons expired rest ih =>
      intro hall
      rw [List.map_cons, List.sum_cons, hall expired List.mem_cons_self,
        ih fun e he => hall e (List.mem_cons_of_mem _ he)]
      rfl
  rw [LaneServer.holding, htasks, zero_add, ExpiryWorker.lanes, hworker _ hinv.ready]

/-- An empty registry keeps no lane. -/
theorem lanes_of_empty {reg : PendingLaneRegistry} (h : reg.entries = ∅) : reg.lanes = 0 := by
  rw [PendingLaneRegistry.lanes, h]
  rfl

/-- What every state of the server with its outcomes should satisfy. -/
structure OneOutcome (o : LaneOutcomes) : Prop where
  /-- at no time is a lane recorded twice, paired twice, or both -/
  atMostOnce : ∀ lane, o.recorded lane + o.paired lane ≤ 1
  /-- only accepted lanes are recorded or paired -/
  acceptedOnly : ∀ lane, lane ∉ o.server.tasks → o.recorded lane + o.paired lane = 0
  /-- at the end, every accepted lane is recorded or paired, but for those whose expired
  record the worker is still busy with -/
  exactlyOnce : o.Ended → o.server.registry.entries = ∅ → ∀ lane ∈ o.server.tasks,
    o.recorded lane + o.paired lane +
      (o.server.worker.removed.map ExpiredPendingLane.lane).count lane = 1
  /-- at the end, the lanes accepted are twice the pairs and the rejections -/
  balance : o.Ended → o.server.registry.entries = ∅ →
    o.server.tasks.keys.length =
      2 * o.pairs.length + o.rejections.length + o.server.worker.removed.length

/-- Every accepted lane is in exactly one place. -/
theorem OutcomeInv.count {o : LaneOutcomes} (hinv : OutcomeInv o) (lane : LaneId) :
    o.server.holding.count lane +
      ((o.owed.map OwedRecord.lane).count lane + o.recorded lane + o.paired lane) =
      if lane ∈ o.server.tasks then 1 else 0 := by
  rw [← count_decided, ← Multiset.count_add, hinv.conserved, count_accepted]

/-- At the end, every accepted lane is in a pair, rejected, left in the registry, or among the
expired records the worker has not recorded yet. -/
theorem OutcomeInv.balance {o : LaneOutcomes} (hinv : OutcomeInv o) (hended : o.Ended) :
    o.server.tasks.keys.length = 2 * o.pairs.length + o.rejections.length +
      o.server.worker.removed.length + o.server.registry.lanes.card := by
  have hcard := congrArg Multiset.card hinv.conserved
  have hpairs : (o.pairs.flatMap fun p => [p.1, p.2]).length = 2 * o.pairs.length := by
    induction o.pairs with
    | nil => rfl
    | cons p rest ih =>
      simp only [List.flatMap_cons, List.length_append, ih, List.length_cons, List.length_nil]
      omega
  rw [accepted_eq_keys, holding_of_ended hinv hended] at hcard
  simp only [LaneOutcomes.decided, Disposal.lanes, hended.2, Multiset.card_add,
    Multiset.coe_card, List.length_map, hpairs, List.length_nil] at hcard
  omega

/-- **One lane, one outcome**, in every run in which no building entry expires: each
accepted lane is paired once and never recorded, or recorded once and never paired. -/
theorem one_lane_one_outcome {o : LaneOutcomes}
    (h : laneOutcomes.ReachesWhere (fun o e => o.expiresNoBuilding e = true) o) :
    OneOutcome o := by
  have hinv := outcomeInv_of_reaches h
  refine ⟨?_, ?_, ?_, ?_⟩
  · intro lane
    have hcount := hinv.count lane
    split at hcount <;> omega
  · intro lane hnot
    have hcount := hinv.count lane
    rw [if_neg hnot] at hcount
    omega
  · intro hended hempty lane hmem
    have hcount := hinv.count lane
    rw [if_pos hmem, holding_of_ended hinv hended, lanes_of_empty hempty, zero_add,
      Multiset.coe_count, hended.2] at hcount
    simp only [List.map_nil, List.count_nil, Nat.zero_add] at hcount
    omega
  · intro hended hempty
    rw [hinv.balance hended, lanes_of_empty hempty, Multiset.card_zero, Nat.add_zero]

/-- Steps of the lane server whose failures are deadlines. -/
def timely (es : List LaneEvent) : List OutcomeEvent := es.map fun e => .lane e .deadline

/-- Two lanes pair and a third fails its hello: three lanes, one pair, one record. -/
theorem three_lanes_settled :
    ∃ o, laneOutcomes.ReachesWhere (fun o e => o.expiresNoBuilding e = true) o ∧ o.Ended ∧
      o.server.tasks.keys.length = 3 ∧ o.pairs.length = 1 ∧
      o.server.tasks.keys.length = 2 * o.pairs.length + o.rejections.length +
        o.server.worker.removed.length := by
  have hrun : ∃ o, laneOutcomes.ReachesWhere (fun o e => o.expiresNoBuilding e = true) o ∧
      o.server.tasks.entries.all (fun e => e.2.phase.ended) = true ∧ o.owed = [] ∧
      o.server.registry.entries = ∅ ∧ o.server.tasks.keys.length = 3 ∧ o.pairs.length = 1 :=
    ⟨_, ⟨timely (arrival 1 .interactive ⟨9⟩ ++
      [LaneEvent.heartbeat 1 true, .confirm 1, .announce 1, .dropSender 1] ++ arrival 2 .bulk ⟨9⟩ ++
      [LaneEvent.heartbeat 2 true, .dropPermit 2, .dropPermit 2,
        .accept 3 .bulk (.v4 0x0a000001#32 50003) (.v4 0x0a0000fe#32 444), .helloFailed 3,
        .dropPermit 3]) ++ [OutcomeEvent.record 3 5000],
      Machine.run_of_exec rfl⟩, rfl, rfl, rfl, rfl, rfl⟩
  obtain ⟨o, ho, hphases, howed, hempty, hthree, hpair⟩ := hrun
  have hended : o.Ended := by
    refine ⟨?_, howed⟩
    intro lane t ht
    exact List.all_eq_true.mp hphases _ (HashMap.lookup_eq_some_iff.mp ht)
  exact ⟨o, ho, hended, hthree, hpair, (one_lane_one_outcome ho).balance hended hempty⟩

/-- A process that sleeps through the pairing deadline while a lane writes its birth
heartbeat: the worker reaps the reservation and records the lane, and the lane's task
records it again. -/
theorem lane_recorded_twice :
    ∃ o, laneOutcomes.Reaches o ∧ o.Ended ∧ o.server.registry.entries = ∅ ∧
      o.server.worker.removed = [] ∧ o.server.tasks.keys.length = 1 ∧
      o.recorded 1 = 2 ∧ ¬ OneOutcome o := by
  have hrun : ∃ o, laneOutcomes.Reaches o ∧
      o.server.tasks.entries.all (fun e => e.2.phase.ended) = true ∧ o.owed = [] ∧
      o.server.registry.entries = ∅ ∧ o.server.worker.removed = [] ∧
      o.server.tasks.keys.length = 1 ∧ o.recorded 1 = 2 :=
    ⟨_, ⟨timely (arrival 1 .interactive ⟨9⟩ ++
      [LaneEvent.expire pairingDeadline, .dropSenders, .reap, .heartbeat 1 true, .confirm 1]) ++
        [OutcomeEvent.record 1 10000],
      Machine.run_of_exec rfl⟩, rfl, rfl, rfl, rfl, rfl, rfl⟩
  obtain ⟨o, ho, hphases, howed, hempty, hworker, hone, htwice⟩ := hrun
  have hended : o.Ended := by
    refine ⟨?_, howed⟩
    intro lane t ht
    exact List.all_eq_true.mp hphases _ (HashMap.lookup_eq_some_iff.mp ht)
  refine ⟨o, ho, hended, hempty, hworker, hone, htwice, ?_⟩
  intro hout
  have hle := hout.atMostOnce 1
  omega

end RtpMux

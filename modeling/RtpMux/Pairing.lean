import RtpMux.LaneStep

/-!
# Pairing agreement

When the registry hands a lane to another one, the two are about to become one
session, so they must belong together: same pairing nonce, same group token, same
peer IP, opposite classes. And a ready lane must not be handed out twice.

Two paths hand lanes out. `register_admitted` checks all of this against the
entry. `pair_wait_step` checks the peer IP and the class again but *not the group
token*: it relies on the entry still being the reservation the waiter subscribed
to. That reliance is wrong when the reservation is cancelled or expires and the
nonce is taken again while the waiter is parked (`pairing_agreement_fails`).
`confirm_reservation` has a similar gap: it recognises its reservation by peer
address and class only, so a late confirmation can claim a reservation made with
another group token.

`groupsAgree` says when neither gap is reached: no entry appears under a nonce on
which a matching lane of another group is parked, and no lane claims a reservation
of another group. In every run that keeps to it, agreement holds
(`pairing_agreement`). The invariant `PairInv` has one clause per place a ready
lane can be in, and the log clause `LogOk` tracks hand-outs.
-/

namespace RtpMux

open LaneServer

/-! ## The log of a well-behaved registry -/

/-- The latest event of the log about a lane. -/
def lastEvent (log : List PairingEvent) (lane : LaneId) : Option PairingEvent :=
  log.find? fun ev => ev.lane = lane

@[simp] theorem lastEvent_nil (lane : LaneId) : lastEvent [] lane = none := rfl

@[grind =] theorem lastEvent_cons (ev : PairingEvent) (log : List PairingEvent) (lane : LaneId) :
    lastEvent (ev :: log) lane = if ev.lane = lane then some ev else lastEvent log lane := by
  unfold lastEvent
  rw [List.find?_cons]
  by_cases h : ev.lane = lane <;> simp [h]

/-- The newest event of a lane is its last. -/
theorem lastEvent_cons_self (ev : PairingEvent) (log : List PairingEvent) :
    lastEvent (ev :: log) ev.lane = some ev := by
  rw [lastEvent_cons, if_pos rfl]

/-- Another lane's event changes nothing for a lane. -/
theorem lastEvent_cons_ne {ev : PairingEvent} {log : List PairingEvent} {lane : LaneId}
    (h : ev.lane ≠ lane) : lastEvent (ev :: log) lane = lastEvent log lane := by
  rw [lastEvent_cons, if_neg h]

/-- A lane is in the registry's hands: it was just confirmed or put back. -/
def Available (log : List PairingEvent) (lane : LaneId) : Prop :=
  lastEvent log lane = some (.confirmed lane) ∨
    ∃ receiver, lastEvent log lane = some (.reinserted receiver lane)

/-- The log (newest event first) of lanes that are confirmed once, handed out only
from the registry's hands, and put back only by whoever received them last. -/
def LogOk : List PairingEvent → Prop
  | [] => True
  | .confirmed lane :: log => lastEvent log lane = none ∧ LogOk log
  | .handed _ lane :: log => Available log lane ∧ LogOk log
  | .reinserted receiver lane :: log =>
    lastEvent log lane = some (.handed receiver lane) ∧ LogOk log

/-- An older log is in order. -/
theorem LogOk.tail {ev : PairingEvent} {log : List PairingEvent} (h : LogOk (ev :: log)) :
    LogOk log := by
  cases ev <;> exact h.2

/-- Every older log is in order. -/
theorem LogOk.suffix {log : List PairingEvent} :
    ∀ {front : List PairingEvent}, LogOk (front ++ log) → LogOk log := by
  intro front
  induction front with
  | nil => exact id
  | cons ev front ih => exact fun h => ih h.tail

/-- A lane the log knows was confirmed. -/
theorem LogOk.confirmed_mem {lane : LaneId} :
    ∀ {log : List PairingEvent}, LogOk log → lastEvent log lane ≠ none →
      PairingEvent.confirmed lane ∈ log := by
  intro log
  induction log with
  | nil => simp
  | cons ev log ih =>
    intro hok hlast
    rw [lastEvent_cons] at hlast
    split at hlast
    · rename_i hlane
      subst hlane
      cases ev with
      | confirmed lane => exact List.mem_cons_self
      | handed receiver lane =>
        refine List.mem_cons_of_mem _ (ih hok.2 ?_)
        rcases hok.1 with h | ⟨_, h⟩ <;> simp [PairingEvent.lane, h]
      | reinserted receiver lane =>
        refine List.mem_cons_of_mem _ (ih hok.2 ?_)
        simp [PairingEvent.lane, hok.1]
    · exact List.mem_cons_of_mem _ (ih hok.tail hlast)

/-- After a hand-out, either the receiver put the lane back or the hand-out is still
the last thing that happened to the lane. -/
theorem LogOk.reinserted_or_last {receiver lane : LaneId} {old : List PairingEvent} :
    ∀ {log : List PairingEvent}, LogOk (log ++ .handed receiver lane :: old) →
      PairingEvent.reinserted receiver lane ∈ log ∨
        lastEvent (log ++ .handed receiver lane :: old) lane = some (.handed receiver lane) := by
  intro log
  induction log with
  | nil =>
    intro _
    right
    simp [lastEvent_cons, PairingEvent.lane]
  | cons ev log ih =>
    intro hok
    rcases ih hok.tail with hmem | hlast
    · exact .inl (List.mem_cons_of_mem _ hmem)
    rw [List.cons_append] at hok ⊢
    by_cases hlane : ev.lane = lane
    · left
      -- the last event was the hand-out, so only its receiver can have acted
      cases ev with
      | confirmed l =>
        obtain rfl : l = lane := hlane
        have hnone := hok.1
        rw [hlast] at hnone
        cases hnone
      | handed receiver' l =>
        obtain rfl : l = lane := hlane
        rcases hok.1 with h | ⟨_, h⟩ <;> rw [hlast] at h <;> cases h
      | reinserted receiver' l =>
        obtain rfl : l = lane := hlane
        have hprev := hok.1
        rw [hlast] at hprev
        cases hprev
        exact List.mem_cons_self
    · right
      rw [lastEvent_cons, if_neg hlane]
      exact hlast

/-! ## What agreement means -/

/-- Two lanes presented the same nonce and group token, come from the same peer IP
and are of opposite classes. -/
def SamePresentation (s : LaneServer) (a b : LaneId) : Prop :=
  ∃ ta tb ha hb, s.tasks.lookup a = some ta ∧ s.tasks.lookup b = some tb ∧
    ta.hello = some ha ∧ tb.hello = some hb ∧ ha.nonce = hb.nonce ∧ ha.group = hb.group ∧
    ta.peer.ip = tb.peer.ip ∧ ha.laneClass ≠ hb.laneClass

/-- Pairing agreement: every hand-out joins two lanes that belong together, the lane
handed out had been confirmed before, and between two hand-outs of a lane the first
receiver put it back. -/
structure PairingAgreement (s : LaneServer) : Prop where
  agree : ∀ receiver lane, PairingEvent.handed receiver lane ∈ s.log →
    SamePresentation s receiver lane
  confirmed : ∀ later earlier receiver lane,
    s.log = later ++ .handed receiver lane :: earlier → PairingEvent.confirmed lane ∈ earlier
  once : ∀ later between earlier receiver receiver' lane,
    s.log = later ++ .handed receiver' lane :: (between ++ .handed receiver lane :: earlier) →
    PairingEvent.reinserted receiver lane ∈ between

/-! ## The condition on runs -/

/-- The task is parked on `nonce` in a way that an entry of `ip` and `laneClass` would be
handed to it, but presented another group than `group`. -/
def LaneTask.parkedInOtherGroup (t : LaneTask) (nonce : PairingNonce) (ip : IpAddr)
    (laneClass : LaneClass) (group : GroupToken) : Bool :=
  match t.phase, t.hello with
  | .waiting _ _ _ _ _, some h =>
    h.nonce = nonce && t.peer.ip = ip && h.laneClass ≠ laneClass && h.group ≠ group
  | _, _ => false

/-- No lane of another group is parked where an entry is about to appear. -/
def LaneServer.noForeignWaiter (s : LaneServer) (nonce : PairingNonce) (ip : IpAddr)
    (laneClass : LaneClass) (group : GroupToken) : Bool :=
  s.tasks.entries.all fun e => !e.2.parkedInOtherGroup nonce ip laneClass group

/-- The step respects group tokens: it puts no entry (a new reservation or a lane put
back) under a nonce on which a matching lane of another group is parked, and it does
not confirm a lane into a reservation made with another group token. -/
def LaneServer.groupsAgree (s : LaneServer) : LaneEvent → Bool
  | .register lane _ =>
    match s.tasks.lookup lane with
    | some ⟨_, peer, _, some h, _⟩ =>
      (s.registry.entries.lookup h.nonce).isSome ||
        s.noForeignWaiter h.nonce peer.ip h.laneClass h.group
    | _ => true
  | .reinsert lane =>
    match s.tasks.lookup lane with
    | some ⟨_, _, _, some h, .restoring _ other _⟩ =>
      (s.registry.entries.lookup h.nonce).isSome ||
        s.noForeignWaiter h.nonce other.peer.ip other.pending.laneClass other.group
    | _ => true
  | .confirm lane =>
    match s.tasks.lookup lane with
    | some ⟨_, peer, _, some h, _⟩ =>
      match s.registry.entries.lookup h.nonce with
      | some (.building peer' _ laneClass' group _ _ _) =>
        peer' ≠ peer || laneClass' ≠ h.laneClass || group = h.group
      | _ => true
    | _ => true
  | _ => true

/-- Read off `noForeignWaiter`: a parked lane that would take the entry is of its
group. -/
theorem LaneServer.noForeignWaiter_spec {s : LaneServer} {nonce : PairingNonce} {ip : IpAddr}
    {laneClass : LaneClass} {group : GroupToken} (h : s.noForeignWaiter nonce ip laneClass group)
    {lane : LaneId} {t : LaneTask} {permit : PendingLanePermit} {changed : LaneId} {seen : Nat}
    {expiresAt : Instant} {pc : WaitPc} {hello : Hello} (ht : s.tasks.lookup lane = some t)
    (hph : t.phase = .waiting permit changed seen expiresAt pc) (hh : t.hello = some hello)
    (hnonce : hello.nonce = nonce) (hip : t.peer.ip = ip) (hclass : hello.laneClass ≠ laneClass) :
    hello.group = group := by
  have hall := List.all_eq_true.mp h _ (HashMap.lookup_eq_some_iff.mp ht)
  simpa [LaneTask.parkedInOtherGroup, hph, hh, hnonce, hip, hclass] using hall

/-! ## The invariant -/

/-- The lane `lane` has shown `hello` from `peer`, and its task is past that point. -/
def LaneServer.Presented (s : LaneServer) (lane : LaneId) (peer : SocketAddr) (hello : Hello) :
    Prop :=
  ∃ t, s.tasks.lookup lane = some t ∧ t.peer = peer ∧ t.hello = some hello ∧ 0 < t.phase.stage

/-- The lane a task was handed and has neither paired nor put back. -/
def LanePhase.held : LanePhase → Option PendingLane
  | offered _ other _ => some other
  | restoring _ other _ => some other
  | _ => none

/-- The task has not confirmed its lane and still may. -/
def LanePhase.unconfirmed : LanePhase → Bool
  | greeting _ => true
  | admitted _ => true
  | reserved => true
  | built => true
  | _ => false

/-- `lane` carries what its supervisor's task presented, under `nonce`. -/
def LaneServer.Genuine (s : LaneServer) (nonce : PairingNonce) (lane : PendingLane) : Prop :=
  ∃ hello, s.Presented lane.supervisor lane.peer hello ∧ hello.nonce = nonce ∧
    hello.laneClass = lane.pending.laneClass ∧ hello.group = lane.group

/-- The invariant behind pairing agreement. -/
structure PairInv (s : LaneServer) : Prop where
  /-- a ready entry is genuine, and its lane is in the registry's hands -/
  ready : ∀ nonce lane expiresAt, s.registry.entries.lookup nonce = some (.ready lane expiresAt) →
    s.Genuine nonce lane ∧ Available s.log lane.supervisor
  /-- a lane held by its receiver is genuine, and was last handed to that receiver -/
  held : ∀ receiver t other, s.tasks.lookup receiver = some t → t.phase.held = some other →
    ∃ hello, t.hello = some hello ∧ s.Genuine hello.nonce other ∧
      lastEvent s.log other.supervisor = some (.handed receiver other.supervisor)
  /-- the entry a parked lane would be handed is of its group -/
  parked : ∀ lane t permit changed seen expiresAt pc hello entry,
    s.tasks.lookup lane = some t → t.phase = .waiting permit changed seen expiresAt pc →
    t.hello = some hello → s.registry.entries.lookup hello.nonce = some entry →
    entry.peer.ip = t.peer.ip → entry.laneClass ≠ hello.laneClass → entry.group = hello.group
  /-- nothing happened yet to a lane that is not confirmed -/
  fresh : ∀ lane t, s.tasks.lookup lane = some t → t.phase.unconfirmed = true →
    lastEvent s.log lane = none
  /-- nothing happened yet to a lane that was not accepted -/
  unknown : ∀ lane, s.tasks.lookup lane = none → lastEvent s.log lane = none
  /-- every hand-out joined two lanes that belong together -/
  agree : ∀ receiver lane, PairingEvent.handed receiver lane ∈ s.log →
    ∃ peer peer' hello hello', s.Presented receiver peer hello ∧ s.Presented lane peer' hello' ∧
      hello.nonce = hello'.nonce ∧ hello.group = hello'.group ∧ peer.ip = peer'.ip ∧
      hello.laneClass ≠ hello'.laneClass
  log : LogOk s.log

/-- At the start nothing is confirmed. -/
theorem pairInv_init : PairInv LaneServer.init where
  ready := by simp [LaneServer.init, PendingLaneRegistry.empty]
  held := by simp [LaneServer.init]
  parked := by simp [LaneServer.init]
  fresh := by simp [LaneServer.init]
  unknown := fun _ _ => rfl
  agree := by simp [LaneServer.init]
  log := trivial

/-- What a lane has presented stays. -/
theorem LaneStep.presented {s s' : LaneServer} {e : LaneEvent} (h : LaneStep s e s')
    {lane : LaneId} {peer : SocketAddr} {hello : Hello} (hp : s.Presented lane peer hello) :
    s'.Presented lane peer hello := by
  obtain ⟨t, ht, hpeer, hhello, hstage⟩ := hp
  obtain ⟨t', ht', hstep⟩ := h.task ht
  exact ⟨t', ht', hstep.peer.trans hpeer, (hstep.hello hstage).trans hhello,
    Nat.lt_of_lt_of_le hstage hstep.stage⟩

/-- A task that acquires nothing pairing cares about: it does not start to wait, is not
handed a lane, and does not become unconfirmed again. -/
structure TaskQuiet (t t' : LaneTask) : Prop where
  peer : t'.peer = t.peer
  unconfirmed : t'.phase.unconfirmed = true → t.phase.unconfirmed = true
  held : ∀ other, t'.phase.held = some other → t.phase.held = some other ∧ t'.hello = t.hello
  parked : ∀ permit changed seen expiresAt pc,
    t'.phase = .waiting permit changed seen expiresAt pc →
    t'.hello = t.hello ∧
      ∃ permit changed seen expiresAt pc, t.phase = .waiting permit changed seen expiresAt pc

theorem TaskQuiet.refl (t : LaneTask) : TaskQuiet t t :=
  ⟨rfl, id, fun _ h => ⟨h, rfl⟩, fun _ _ _ _ _ h => ⟨rfl, _, _, _, _, _, h⟩⟩

/-- Moving on to a phase that neither waits nor holds a lane is quiet. -/
theorem TaskQuiet.of_plain {t t' : LaneTask} {phase : LanePhase} (hpeer : t'.peer = t.peer)
    (hheld : phase.held = none) (hun : phase.unconfirmed = true → t.phase.unconfirmed = true)
    (hpark : ∀ permit changed seen expiresAt pc,
      phase ≠ .waiting permit changed seen expiresAt pc) :
    TaskQuiet t { t' with phase := phase } :=
  ⟨hpeer, hun, fun other h => by simp [hheld] at h, fun _ _ _ _ _ h => absurd h (hpark _ _ _ _ _)⟩

/-- A plain move of a task is quiet. -/
theorem PhaseMove.quiet {t : LaneTask} {phase : LanePhase} (h : PhaseMove t.phase phase) :
    TaskQuiet t { t with phase := phase } := by
  generalize hφ : t.phase = φ at h
  cases h <;> constructor <;> simp_all [LanePhase.unconfirmed, LanePhase.held]

/-- The invariant survives a step that leaves the log alone, only removes entries, and
moves tasks quietly. -/
theorem PairInv.quiet {s s' : LaneServer} {e : LaneEvent} (h : PairInv s) (hst : LaneStep s e s')
    (hlog : s'.log = s.log)
    (hent : ∀ nonce, s'.registry.entries.lookup nonce = s.registry.entries.lookup nonce ∨
      s'.registry.entries.lookup nonce = none)
    (htask : ∀ lane t', s'.tasks.lookup lane = some t' →
      (∃ t, s.tasks.lookup lane = some t ∧ TaskQuiet t t') ∨
        s.tasks.lookup lane = none ∧ t'.phase.held = none ∧
          ∀ permit changed seen expiresAt pc,
            t'.phase ≠ .waiting permit changed seen expiresAt pc) :
    PairInv s' := by
  have hentry : ∀ {nonce entry}, s'.registry.entries.lookup nonce = some entry →
      s.registry.entries.lookup nonce = some entry := by
    intro nonce entry hn
    rcases hent nonce with heq | hnone
    · rw [← heq, hn]
    · rw [hnone] at hn
      cases hn
  have hgen : ∀ {nonce lane}, s.Genuine nonce lane → s'.Genuine nonce lane := by
    rintro nonce lane ⟨hello, hp, hrest⟩
    exact ⟨hello, hst.presented hp, hrest⟩
  -- nothing is confirmed or handed over, and entries only go
  constructor
  case ready =>
    intro nonce lane expiresAt hn
    obtain ⟨hg, hav⟩ := h.ready nonce lane expiresAt (hentry hn)
    exact ⟨hgen hg, hlog ▸ hav⟩
  case held =>
    intro receiver t' other ht' hheld
    obtain ⟨t, ht, hq⟩ | ⟨-, hnone, -⟩ := htask receiver t' ht'
    · obtain ⟨hheld', hhello⟩ := hq.held other hheld
      obtain ⟨hello, hh, hg, hlast⟩ := h.held receiver t other ht hheld'
      exact ⟨hello, hhello.trans hh, hgen hg, hlog ▸ hlast⟩
    · rw [hnone] at hheld
      cases hheld
  case parked =>
    intro lane t' permit changed seen expiresAt pc hello entry ht' hph hh hn hip hclass
    obtain ⟨t, ht, hq⟩ | ⟨-, -, hnone⟩ := htask lane t' ht'
    · obtain ⟨hhello, permit', changed', seen', expiresAt', pc', hph'⟩ := hq.parked _ _ _ _ _ hph
      refine h.parked lane t _ _ _ _ _ hello entry ht hph' (hhello ▸ hh) (hentry hn) ?_ hclass
      rw [hip, hq.peer]
    · exact absurd hph (hnone _ _ _ _ _)
  case fresh =>
    intro lane t' ht' hun
    rw [hlog]
    obtain ⟨t, ht, hq⟩ | ⟨hnone, -⟩ := htask lane t' ht'
    · exact h.fresh lane t ht (hq.unconfirmed hun)
    · exact h.unknown lane hnone
  case unknown =>
    intro lane hnone
    rw [hlog]
    exact h.unknown lane (by_contra fun hne => hst.tasks_mono hne hnone)
  case agree =>
    intro receiver lane hmem
    rw [hlog] at hmem
    obtain ⟨peer, peer', hello, hello', hp, hp', hrest⟩ := h.agree receiver lane hmem
    exact ⟨peer, peer', hello, hello', hst.presented hp, hst.presented hp', hrest⟩
  case log => rw [hlog]; exact h.log

/-- `htask` of `PairInv.quiet` for a step that moves one task. -/
theorem quiet_setPhase {s : LaneServer} {lane : LaneId} {t t' : LaneTask} {phase : LanePhase}
    (ht : s.tasks.lookup lane = some t) (hq : TaskQuiet t { t' with phase := phase }) :
    ∀ lane₁ t₁, (s.setPhase lane t' phase).tasks.lookup lane₁ = some t₁ →
      (∃ t₀, s.tasks.lookup lane₁ = some t₀ ∧ TaskQuiet t₀ t₁) ∨
        s.tasks.lookup lane₁ = none ∧ t₁.phase.held = none ∧
          ∀ permit changed seen expiresAt pc,
            t₁.phase ≠ .waiting permit changed seen expiresAt pc := by
  intro lane₁ t₁ h₁
  rw [lookup_setPhase] at h₁
  split at h₁
  · rename_i heq
    subst heq
    obtain rfl := Option.some.inj h₁
    exact .inl ⟨t, ht, hq⟩
  · exact .inl ⟨t₁, h₁, .refl t₁⟩

/-! ## Steps that are not quiet -/

/-- An available lane has an event. -/
theorem Available.ne_none {log : List PairingEvent} {lane : LaneId} (h : Available log lane) :
    lastEvent log lane ≠ none := by
  rcases h with h | ⟨_, h⟩ <;> simp [h]

/-- An available lane is not handed over. -/
theorem Available.not_handed {log : List PairingEvent} {lane receiver : LaneId}
    (h : Available log lane) : lastEvent log lane ≠ some (.handed receiver lane) := by
  rcases h with h | ⟨_, h⟩ <;> simp [h]

/-- An event about another lane changes nothing for a lane in the registry's hands. -/
theorem Available.cons {log : List PairingEvent} {lane : LaneId} {ev : PairingEvent}
    (h : Available log lane) (hne : ev.lane ≠ lane) : Available (ev :: log) lane := by
  unfold Available
  rw [lastEvent_cons, if_neg hne]
  exact h

/-- A lane has presented one hello. -/
theorem LaneServer.Presented.unique {s : LaneServer} {lane : LaneId} {peer peer' : SocketAddr}
    {hello hello' : Hello} (h : s.Presented lane peer hello) (h' : s.Presented lane peer' hello') :
    hello = hello' := by
  obtain ⟨t, ht, -, hh, -⟩ := h
  obtain ⟨t', ht', -, hh', -⟩ := h'
  rw [ht] at ht'
  obtain rfl := Option.some.inj ht'
  rw [hh] at hh'
  exact Option.some.inj hh'

/-- A lane is genuine under one nonce only. -/
theorem LaneServer.Genuine.nonce_eq {s : LaneServer} {nonce nonce' : PairingNonce}
    {lane lane' : PendingLane} (h : s.Genuine nonce lane) (h' : s.Genuine nonce' lane')
    (hsup : lane.supervisor = lane'.supervisor) : nonce = nonce' := by
  obtain ⟨hello, hp, rfl, -⟩ := h
  obtain ⟨hello', hp', rfl, -⟩ := h'
  rw [hsup] at hp
  rw [hp.unique hp']

/-- A lane that says its hello's data keeps saying them. -/
theorem LaneStep.genuine {s s' : LaneServer} {e : LaneEvent} (h : LaneStep s e s')
    {nonce : PairingNonce} {lane : PendingLane} (hg : s.Genuine nonce lane) :
    s'.Genuine nonce lane := by
  obtain ⟨hello, hp, hrest⟩ := hg
  exact ⟨hello, h.presented hp, hrest⟩

/-- The clause `agree` speaks about what lanes presented, so it survives every step. -/
theorem PairInv.agree_mono {s s' : LaneServer} {e : LaneEvent} (h : PairInv s)
    (hst : LaneStep s e s') {receiver lane : LaneId}
    (hmem : PairingEvent.handed receiver lane ∈ s.log) :
    ∃ peer peer' hello hello', s'.Presented receiver peer hello ∧
      s'.Presented lane peer' hello' ∧ hello.nonce = hello'.nonce ∧ hello.group = hello'.group ∧
      peer.ip = peer'.ip ∧ hello.laneClass ≠ hello'.laneClass := by
  obtain ⟨peer, peer', hello, hello', hp, hp', hrest⟩ := h.agree receiver lane hmem
  exact ⟨peer, peer', hello, hello', hst.presented hp, hst.presented hp', hrest⟩

/-- The clause `unknown`, when the new event is about an accepted lane. -/
theorem PairInv.unknown_mono {s s' : LaneServer} {e : LaneEvent} (h : PairInv s)
    (hst : LaneStep s e s') {lane : LaneId} (hnone : s'.tasks.lookup lane = none) :
    s.tasks.lookup lane = none ∧ lastEvent s.log lane = none := by
  have hold : s.tasks.lookup lane = none := by_contra fun hne => hst.tasks_mono hne hnone
  exact ⟨hold, h.unknown lane hold⟩

/-- A reservation is made: the waiters parked on the nonce are of its group. -/
theorem PairInv.reserve {s : LaneServer} {lane : LaneId} {now : Instant} {t : LaneTask}
    {permit : PendingLanePermit} {h : Hello} (hinv : PairInv s)
    (hC : s.groupsAgree (.register lane now) = true) (ht : s.tasks.lookup lane = some t)
    (hph : t.phase = .admitted permit) (hh : t.hello = some h)
    (hfree : s.registry.entries.lookup h.nonce = none) :
    PairInv (setPhase { s with
      registry := { s.registry with
        entries := s.registry.entries.insert h.nonce (.building t.peer t.localAddr
          h.laneClass h.group (now + pairingDeadline) lane permit) }
      watches := s.watches.insert lane ⟨0, false⟩ } lane t .reserved) := by
  have hst : LaneStep s (.register lane now) _ := .reserve ht hph hh hfree
  have hwait : s.noForeignWaiter h.nonce t.peer.ip h.laneClass h.group = true := by
    obtain ⟨expectedClass, peer, localAddr, hello, phase⟩ := t
    simp only at hh
    subst hh
    simpa [groupsAgree, ht, hfree] using hC
  -- a new reservation must not catch a waiter of another group: that is the condition
  constructor
  case ready =>
    intro nonce other expiresAt hentry
    simp only [LaneServer.setPhase, HashMap.lookup_insert_eq] at hentry
    split at hentry
    · cases hentry
    · obtain ⟨hg, hav⟩ := hinv.ready nonce other expiresAt hentry
      exact ⟨hst.genuine hg, hav⟩
  case held =>
    intro receiver t' other ht' hheld
    rw [lookup_setPhase] at ht'
    split at ht'
    · obtain rfl := Option.some.inj ht'
      cases hheld
    · obtain ⟨hello, hhello, hg, hlast⟩ := hinv.held receiver t' other ht' hheld
      exact ⟨hello, hhello, hst.genuine hg, hlast⟩
  case parked =>
    intro lane' t' permit' changed seen expiresAt pc hello entry ht' hph' hh' hentry hip hclass
    rw [lookup_setPhase] at ht'
    split at ht'
    · obtain rfl := Option.some.inj ht'
      cases hph'
    · simp only [LaneServer.setPhase, HashMap.lookup_insert_eq] at hentry
      split at hentry
      · rename_i hn
        obtain rfl := Option.some.inj hentry
        exact (noForeignWaiter_spec hwait ht' hph' hh' hn hip.symm (Ne.symm hclass)).symm
      · exact hinv.parked _ _ _ _ _ _ _ _ _ ht' hph' hh' hentry hip hclass
  case fresh =>
    intro lane' t' ht' hun
    rw [lookup_setPhase] at ht'
    split at ht'
    · rename_i hl
      subst hl
      exact hinv.fresh lane' t ht (by rw [hph]; rfl)
    · exact hinv.fresh lane' t' ht' hun
  case unknown => exact fun lane' hnone => (hinv.unknown_mono hst hnone).2
  case agree => exact fun receiver lane' hmem => hinv.agree_mono hst hmem
  case log => exact hinv.log

/-- A lane parks: the reservation it found is of its group. -/
theorem PairInv.subscribe {s : LaneServer} {lane : LaneId} (now : Instant) {t : LaneTask}
    {permit permit' : PendingLanePermit} {h : Hello} {peer localAddr : SocketAddr}
    {laneClass : LaneClass} {expiresAt : Instant} {changed : LaneId} (hinv : PairInv s)
    (ht : s.tasks.lookup lane = some t) (hph : t.phase = .admitted permit) (hh : t.hello = some h)
    (hentry : s.registry.entries.lookup h.nonce =
      some (.building peer localAddr laneClass h.group expiresAt changed permit'))
    (hip : peer.ip = t.peer.ip) (hclass : laneClass ≠ h.laneClass) :
    PairInv (s.setPhase lane t
      (.waiting permit changed (s.watchVersion changed) expiresAt .heartbeat)) := by
  have hst : LaneStep s (.register lane now) _ := .subscribe ht hph hh hentry hip hclass
  constructor
  case ready =>
    intro nonce other expiresAt' hready
    obtain ⟨hg, hav⟩ := hinv.ready nonce other expiresAt' hready
    exact ⟨hst.genuine hg, hav⟩
  case held =>
    intro receiver t' other ht' hheld
    rw [lookup_setPhase] at ht'
    split at ht'
    · obtain rfl := Option.some.inj ht'
      cases hheld
    · obtain ⟨hello, hhello, hg, hlast⟩ := hinv.held receiver t' other ht' hheld
      exact ⟨hello, hhello, hst.genuine hg, hlast⟩
  case parked =>
    intro lane' t' permit₁ changed₁ seen₁ expiresAt₁ pc hello entry ht' hph' hh' hentry'
      hip' hclass'
    rw [lookup_setPhase] at ht'
    split at ht'
    · obtain rfl := Option.some.inj ht'
      obtain rfl : h = hello := Option.some.inj (hh.symm.trans hh')
      have heq : s.registry.entries.lookup h.nonce = some entry := hentry'
      rw [hentry] at heq
      obtain rfl := Option.some.inj heq
      rfl
    · exact hinv.parked _ _ _ _ _ _ _ _ _ ht' hph' hh' hentry' hip' hclass'
  case fresh =>
    intro lane' t' ht' hun
    rw [lookup_setPhase] at ht'
    split at ht'
    · obtain rfl := Option.some.inj ht'
      cases hun
    · exact hinv.fresh lane' t' ht' hun
  case unknown => exact fun lane' hnone => (hinv.unknown_mono hst hnone).2
  case agree => exact fun receiver lane' hmem => hinv.agree_mono hst hmem
  case log => exact hinv.log

/-- **Hand-out.** A ready lane of the receiver's group leaves the registry: it goes to
the receiver, which either keeps it (`offered`) or pairs it on the spot. -/
theorem PairInv.handed {s : LaneServer} {e : LaneEvent} {lane : LaneId} {t : LaneTask}
    {phase : LanePhase} {h : Hello} {other : PendingLane} {expiresAt : Instant}
    (hinv : PairInv s) (ht : s.tasks.lookup lane = some t) (hh : t.hello = some h)
    (hentry : s.registry.entries.lookup h.nonce = some (.ready other expiresAt))
    (hip : other.peer.ip = t.peer.ip) (hclass : other.pending.laneClass ≠ h.laneClass)
    (hgroup : other.group = h.group) (hstage : 0 < t.phase.stage)
    (hheld : phase.held = none ∨ phase.held = some other) (hun : phase.unconfirmed = false)
    (hpark : ∀ permit changed seen expiresAt pc,
      phase ≠ .waiting permit changed seen expiresAt pc)
    (hst : LaneStep s e (setPhase { s with
      registry := { s.registry with entries := s.registry.entries.erase h.nonce }
      log := .handed lane other.supervisor :: s.log } lane t phase)) :
    PairInv (setPhase { s with
      registry := { s.registry with entries := s.registry.entries.erase h.nonce }
      log := .handed lane other.supervisor :: s.log } lane t phase) := by
  obtain ⟨hgen, hav⟩ := hinv.ready _ _ _ hentry
  -- the event leaves the history of every other lane alone
  have hlast : ∀ lane', other.supervisor ≠ lane' →
      lastEvent (.handed lane other.supervisor :: s.log) lane' = lastEvent s.log lane' :=
    fun _ hne => lastEvent_cons_ne hne
  constructor
  case ready =>
    intro nonce other' expiresAt' hready
    simp only [LaneServer.setPhase, HashMap.lookup_erase_eq] at hready
    split at hready
    · cases hready
    · rename_i hn
      obtain ⟨hg, hav'⟩ := hinv.ready nonce other' expiresAt' hready
      exact ⟨hst.genuine hg, hav'.cons fun heq => hn (hg.nonce_eq hgen heq.symm)⟩
  case held =>
    intro receiver t' other' ht' hheld'
    rw [lookup_setPhase] at ht'
    split at ht'
    · rename_i hl
      subst hl
      obtain rfl := Option.some.inj ht'
      simp only at hheld'
      obtain rfl : other = other' := by
        rcases hheld with hnone | hsome
        · rw [hnone] at hheld'
          cases hheld'
        · exact Option.some.inj (hsome.symm.trans hheld')
      refine ⟨h, hh, hst.genuine hgen, ?_⟩
      exact lastEvent_cons_self ..
    · obtain ⟨hello, hhello, hg, hl⟩ := hinv.held receiver t' other' ht' hheld'
      refine ⟨hello, hhello, hst.genuine hg, (hlast _ fun heq => ?_).trans hl⟩
      rw [← heq] at hl
      exact hav.not_handed hl
  case parked =>
    intro lane' t' permit₁ changed₁ seen₁ expiresAt₁ pc hello entry ht' hph' hh' hentry'
      hip' hclass'
    rw [lookup_setPhase] at ht'
    split at ht'
    · obtain rfl := Option.some.inj ht'
      exact absurd hph' (hpark _ _ _ _ _)
    · simp only [LaneServer.setPhase, HashMap.lookup_erase_eq] at hentry'
      split at hentry'
      · cases hentry'
      · exact hinv.parked _ _ _ _ _ _ _ _ _ ht' hph' hh' hentry' hip' hclass'
  case fresh =>
    intro lane' t' ht' hun'
    rw [lookup_setPhase] at ht'
    split at ht'
    · obtain rfl := Option.some.inj ht'
      simp only [hun] at hun'
      cases hun'
    · have hnone := hinv.fresh lane' t' ht' hun'
      refine (hlast lane' ?_).trans hnone
      rintro rfl
      exact hav.ne_none hnone
  case unknown =>
    intro lane' hnone
    obtain ⟨-, hnone⟩ := hinv.unknown_mono hst hnone
    refine (hlast lane' ?_).trans hnone
    rintro rfl
    exact hav.ne_none hnone
  case agree =>
    intro receiver lane' hmem
    rcases List.mem_cons.mp hmem with heq | hmem
    · cases heq
      obtain ⟨hello, hp, hn, hc, hg⟩ := hgen
      refine ⟨t.peer, other.peer, h, hello, hst.presented ⟨t, ht, rfl, hh, hstage⟩,
        hst.presented hp, hn.symm, ?_, hip.symm, ?_⟩
      · rw [hg, hgroup]
      · rw [hc]
        exact Ne.symm hclass
    · exact hinv.agree_mono hst hmem
  case log => exact ⟨hav, hinv.log⟩

/-- A lane becomes a ready entry in place of the reservation, which is of its group. -/
theorem PairInv.confirm {s : LaneServer} {lane : LaneId} {t : LaneTask} {h : Hello}
    {localAddr : SocketAddr} {group : GroupToken} {expiresAt : Instant} {changed : LaneId}
    {permit : PendingLanePermit} (hinv : PairInv s)
    (hC : s.groupsAgree (.confirm lane) = true)
    (ht : s.tasks.lookup lane = some t) (hph : t.phase = .built) (hh : t.hello = some h)
    (hentry : s.registry.entries.lookup h.nonce =
      some (.building t.peer localAddr h.laneClass group expiresAt changed permit)) :
    PairInv (setPhase { s with
      registry := { s.registry with
        entries := (s.registry.entries.erase h.nonce).insert h.nonce
          (.ready ⟨⟨h.laneClass, h.nonce, h.group⟩, t.peer, t.localAddr, group, permit, lane⟩
            expiresAt) }
      log := .confirmed lane :: s.log } lane t (.announcing changed)) := by
  have hst := LaneStep.confirm ht hph hh hentry
  obtain rfl : group = h.group := by
    obtain ⟨expectedClass, peer, localAddr, hello, phase⟩ := t
    simp only at hh hentry
    subst hh
    simpa [groupsAgree, ht, hentry] using hC
  -- the group agrees by the condition: the source compares nonce, peer and class only
  have hnew : lastEvent s.log lane = none := hinv.fresh lane t ht (by rw [hph]; rfl)
  have hlast : ∀ lane', lane ≠ lane' →
      lastEvent (.confirmed lane :: s.log) lane' = lastEvent s.log lane' :=
    fun _ hne => lastEvent_cons_ne hne
  constructor
  case ready =>
    intro nonce other expiresAt' hready
    simp only [LaneServer.setPhase, HashMap.lookup_insert_eq] at hready
    split at hready
    · rename_i hn
      cases hready
      subst hn
      refine ⟨⟨h, hst.presented ⟨t, ht, rfl, hh, ?_⟩, rfl, rfl, rfl⟩, .inl ?_⟩
      · rw [hph]
        exact Nat.succ_pos _
      · exact lastEvent_cons_self ..
    · rename_i hn
      rw [HashMap.lookup_erase_eq, if_neg hn] at hready
      obtain ⟨hg, hav⟩ := hinv.ready nonce other expiresAt' hready
      refine ⟨hst.genuine hg, hav.cons ?_⟩
      rintro rfl
      exact hav.ne_none hnew
  case held =>
    intro receiver t' other ht' hheld
    rw [lookup_setPhase] at ht'
    split at ht'
    · obtain rfl := Option.some.inj ht'
      cases hheld
    · obtain ⟨hello, hhello, hg, hl⟩ := hinv.held receiver t' other ht' hheld
      refine ⟨hello, hhello, hst.genuine hg, (hlast _ ?_).trans hl⟩
      rintro rfl
      rw [hnew] at hl
      cases hl
  case parked =>
    intro lane' t' permit₁ changed₁ seen₁ expiresAt₁ pc hello entry ht' hph' hh' hentry'
      hip' hclass'
    rw [lookup_setPhase] at ht'
    split at ht'
    · obtain rfl := Option.some.inj ht'
      cases hph'
    · simp only [LaneServer.setPhase, HashMap.lookup_insert_eq] at hentry'
      split at hentry'
      · -- the entry looks to a waiter as the reservation did
        rename_i hn
        obtain rfl := Option.some.inj hentry'
        rw [← hn] at hentry
        have hgroup := hinv.parked _ _ _ _ _ _ _ _ _ ht' hph' hh' hentry hip' hclass'
        exact hgroup
      · rename_i hn
        rw [HashMap.lookup_erase_eq, if_neg hn] at hentry'
        exact hinv.parked _ _ _ _ _ _ _ _ _ ht' hph' hh' hentry' hip' hclass'
  case fresh =>
    intro lane' t' ht' hun
    rw [lookup_setPhase] at ht'
    split at ht'
    · obtain rfl := Option.some.inj ht'
      cases hun
    · rename_i hne
      exact (hlast lane' (Ne.symm hne)).trans (hinv.fresh lane' t' ht' hun)
  case unknown =>
    intro lane' hnone
    obtain ⟨hold, hnone⟩ := hinv.unknown_mono hst hnone
    refine (hlast lane' ?_).trans hnone
    rintro rfl
    rw [ht] at hold
    cases hold
  case agree =>
    intro receiver lane' hmem
    rcases List.mem_cons.mp hmem with heq | hmem
    · cases heq
    · exact hinv.agree_mono hst hmem
  case log => exact ⟨hnew, hinv.log⟩

/-- A receiver puts its lane back: the waiters parked on the nonce are of its group. -/
theorem PairInv.reinsert {s : LaneServer} {lane : LaneId} {t : LaneTask} {h : Hello}
    {permit : PendingLanePermit} {other : PendingLane} {expiresAt : Instant} (hinv : PairInv s)
    (hC : s.groupsAgree (.reinsert lane) = true) (ht : s.tasks.lookup lane = some t)
    (hph : t.phase = .restoring permit other expiresAt) (hh : t.hello = some h)
    (hfree : s.registry.entries.lookup h.nonce = none) :
    PairInv (setPhase { s with
      registry := { s.registry with
        entries := s.registry.entries.insert h.nonce (.ready other expiresAt) }
      log := .reinserted lane other.supervisor :: s.log } lane t (.rejecting [permit])) := by
  have hst := LaneStep.reinsert ht hph hh hfree
  have hwait : s.noForeignWaiter h.nonce other.peer.ip other.pending.laneClass other.group := by
    obtain ⟨expectedClass, peer, localAddr, hello, phase⟩ := t
    simp only at hh hph
    subst hh hph
    simpa [groupsAgree, ht, hfree] using hC
  obtain ⟨hello, hhello, hgen, hhanded⟩ := hinv.held lane t other ht (by rw [hph]; rfl)
  obtain rfl : h = hello := Option.some.inj (hh.symm.trans hhello)
  have hlast : ∀ lane', other.supervisor ≠ lane' →
      lastEvent (.reinserted lane other.supervisor :: s.log) lane' = lastEvent s.log lane' :=
    fun _ hne => lastEvent_cons_ne hne
  constructor
  case ready =>
    intro nonce other' expiresAt' hready
    simp only [LaneServer.setPhase, HashMap.lookup_insert_eq] at hready
    split at hready
    · rename_i hn
      cases hready
      subst hn
      exact ⟨hst.genuine hgen, .inr ⟨lane, lastEvent_cons_self ..⟩⟩
    · rename_i hn
      obtain ⟨hg, hav⟩ := hinv.ready nonce other' expiresAt' hready
      exact ⟨hst.genuine hg, hav.cons fun heq => hn (hg.nonce_eq hgen heq.symm)⟩
  case held =>
    intro receiver t' other' ht' hheld
    rw [lookup_setPhase] at ht'
    split at ht'
    · obtain rfl := Option.some.inj ht'
      cases hheld
    · rename_i hne
      obtain ⟨hello', hhello', hg, hl⟩ := hinv.held receiver t' other' ht' hheld
      refine ⟨hello', hhello', hst.genuine hg, (hlast _ fun heq => hne ?_).trans hl⟩
      -- a lane has one last receiver
      rw [← heq, hhanded] at hl
      cases hl
      rfl
  case parked =>
    intro lane' t' permit₁ changed₁ seen₁ expiresAt₁ pc hello' entry ht' hph' hh' hentry'
      hip' hclass'
    rw [lookup_setPhase] at ht'
    split at ht'
    · obtain rfl := Option.some.inj ht'
      cases hph'
    · simp only [LaneServer.setPhase, HashMap.lookup_insert_eq] at hentry'
      split at hentry'
      · rename_i hn
        obtain rfl := Option.some.inj hentry'
        exact (noForeignWaiter_spec hwait ht' hph' hh' hn hip'.symm (Ne.symm hclass')).symm
      · exact hinv.parked _ _ _ _ _ _ _ _ _ ht' hph' hh' hentry' hip' hclass'
  case fresh =>
    intro lane' t' ht' hun
    rw [lookup_setPhase] at ht'
    split at ht'
    · obtain rfl := Option.some.inj ht'
      cases hun
    · have hnone := hinv.fresh lane' t' ht' hun
      refine (hlast lane' ?_).trans hnone
      rintro rfl
      rw [hnone] at hhanded
      cases hhanded
  case unknown =>
    intro lane' hnone
    obtain ⟨-, hnone⟩ := hinv.unknown_mono hst hnone
    refine (hlast lane' ?_).trans hnone
    rintro rfl
    rw [hnone] at hhanded
    cases hhanded
  case agree =>
    intro receiver lane' hmem
    rcases List.mem_cons.mp hmem with heq | hmem
    · cases heq
    · exact hinv.agree_mono hst hmem
  case log => exact ⟨hhanded, hinv.log⟩

/-- **Step lemma.** A step that respects group tokens keeps the invariant. -/
theorem PairInv.step {s s' : LaneServer} {e : LaneEvent} (h : PairInv s)
    (hC : s.groupsAgree e = true) (hst : s.step e = some s') : PairInv s' := by
  have hstep := LaneStep.of_step hst
  -- an entry that is erased or rebuilt in place
  have herase : ∀ n nonce, (s.registry.entries.erase n).lookup nonce =
      s.registry.entries.lookup nonce ∨ (s.registry.entries.erase n).lookup nonce = none := by
    intro n nonce
    rw [HashMap.lookup_erase_eq]
    split
    · exact .inr rfl
    · exact .inl rfl
  cases LaneStep.of_step hst with
  | @accepted lane expectedClass peer localAddr hnew =>
    refine h.quiet hstep rfl (fun _ => .inl rfl) fun lane' t' ht' => ?_
    simp only [HashMap.lookup_insert_eq] at ht'
    split at ht'
    · rename_i hl
      obtain rfl := Option.some.inj ht'
      exact .inr ⟨hl ▸ hnew, rfl, nofun⟩
    · exact .inl ⟨t', ht', .refl t'⟩
  | overCapacity hnew =>
    refine h.quiet hstep rfl (fun _ => .inl rfl) fun lane' t' ht' => ?_
    simp only [HashMap.lookup_insert_eq] at ht'
    split at ht'
    · rename_i hl
      obtain rfl := Option.some.inj ht'
      exact .inr ⟨hl ▸ hnew, rfl, nofun⟩
    · exact .inl ⟨t', ht', .refl t'⟩
  | helloRejected hello ht hph =>
    exact h.quiet hstep rfl (fun _ => .inl rfl)
      (quiet_setPhase ht (.of_plain rfl rfl nofun nofun))
  | helloRead hello ht hph hclass =>
    refine h.quiet hstep rfl (fun _ => .inl rfl)
      (quiet_setPhase ht (.of_plain rfl rfl (fun _ => ?_) nofun))
    rw [hph]
    rfl
  | move ht hmove => exact h.quiet hstep rfl (fun _ => .inl rfl) (quiet_setPhase ht hmove.quiet)
  | reserve ht hph hh hfree => exact h.reserve hC ht hph hh hfree
  | @subscribe lane now t permit hello peer localAddr laneClass expiresAt changed permit' ht hph hh
      hentry hip hclass => exact h.subscribe now ht hph hh hentry hip hclass
  | offer ht hph hh hentry hip hclass hgroup =>
    refine h.handed ht hh hentry hip hclass hgroup ?_ (.inr rfl) rfl nofun hstep
    rw [hph]
    exact Nat.succ_pos _
  | handOver ht hph hh hentry hip hclass =>
    have hgroup := h.parked _ _ _ _ _ _ _ _ _ ht hph hh hentry hip hclass
    refine h.handed ht hh hentry hip hclass hgroup ?_ (.inl rfl) rfl nofun hstep
    rw [hph]
    exact Nat.succ_pos _
  | cancel ht hph hh hentry =>
    exact h.quiet hstep rfl (herase _) (quiet_setPhase ht (.of_plain rfl rfl nofun nofun))
  | cancelMissed ht hph hh hnone =>
    exact h.quiet hstep rfl (fun _ => .inl rfl)
      (quiet_setPhase ht (.of_plain rfl rfl nofun nofun))
  | dropEntry ht hph =>
    exact h.quiet hstep rfl (fun _ => .inl rfl)
      (quiet_setPhase ht (.of_plain rfl rfl nofun nofun))
  | confirm ht hph hh hentry => exact h.confirm hC ht hph hh hentry
  | confirmMissed ht hph hh hnone hreg =>
    refine h.quiet hstep rfl (fun nonce => ?_) (quiet_setPhase ht (.of_plain rfl rfl nofun nofun))
    obtain rfl | ⟨entry, hentry, rfl⟩ := hreg
    · exact .inl rfl
    · simp only [LaneServer.setPhase, HashMap.lookup_insert_eq]
      split
      · rename_i hn
        exact .inl (hn ▸ hentry.symm)
      · exact herase _ nonce
  | announce ht hph hw =>
    exact h.quiet hstep rfl (fun _ => .inl rfl)
      (quiet_setPhase ht (.of_plain rfl rfl nofun nofun))
  | dropSender ht hph =>
    exact h.quiet hstep rfl (fun _ => .inl rfl)
      (quiet_setPhase ht (.of_plain rfl rfl nofun nofun))
  | reinsert ht hph hh hfree => exact h.reinsert hC ht hph hh hfree
  | @dropPaired lane t permit permits ht hph =>
    refine h.quiet hstep rfl (fun nonce => .inl ?_)
      (quiet_setPhase (s := s.releasePermit permit) ht (.of_plain rfl rfl nofun nofun))
    simp only [LaneServer.setPhase, releasePermit, dropPermit_entries]
  | @dropRejected lane t permit permits ht hph =>
    refine h.quiet hstep rfl (fun nonce => .inl ?_)
      (quiet_setPhase (s := s.releasePermit permit) ht (.of_plain rfl rfl nofun nofun))
    simp only [LaneServer.setPhase, releasePermit, dropPermit_entries]
  | @expire now hidle =>
    exact h.quiet hstep rfl (s.registry.expire_spec now).lookup fun _ t' ht' =>
      .inl ⟨t', ht', .refl t'⟩
  | dropSenders =>
    exact h.quiet hstep rfl (fun _ => .inl rfl) fun _ t' ht' => .inl ⟨t', ht', .refl t'⟩
  | reap hw =>
    refine h.quiet hstep rfl (fun nonce => .inl ?_) fun _ t' ht' => .inl ⟨t', ht', .refl t'⟩
    simp only [releasePermit, dropPermit_entries]

/-- **Pairing agreement.** In every run whose steps respect group tokens, every hand-out
joins two lanes with the same nonce, group token and peer IP and of opposite classes,
the lane handed out had been confirmed before, and it is handed out again only after its
receiver put it back. -/
theorem pairing_agreement (s : LaneServer)
    (h : laneServer.ReachesWhere (fun s e => s.groupsAgree e = true) s) : PairingAgreement s := by
  have hinv : PairInv s :=
    h.invariant pairInv_init fun _ _ _ hs hC hst => hs.step hC hst
  refine ⟨?_, ?_, ?_⟩
  · intro receiver lane hmem
    obtain ⟨peer, peer', hello, hello', ⟨t, ht, rfl, hh, -⟩, ⟨t', ht', rfl, hh', -⟩, hn, hg, hip,
      hc⟩ := hinv.agree receiver lane hmem
    exact ⟨t, t', hello, hello', ht, ht', hh, hh', hn, hg, hip, hc⟩
  · intro later earlier receiver lane hlog
    have hok : LogOk (later ++ .handed receiver lane :: earlier) := hlog ▸ hinv.log
    obtain ⟨hav, hok⟩ := hok.suffix
    exact hok.confirmed_mem hav.ne_none
  · intro later between earlier receiver receiver' lane hlog
    have hok : LogOk (later ++ .handed receiver' lane ::
        (between ++ .handed receiver lane :: earlier)) := hlog ▸ hinv.log
    obtain ⟨hav, hok⟩ := hok.suffix
    rcases hok.reinserted_or_last with hmem | hlast
    · exact hmem
    · exact absurd hlast hav.not_handed

/-- Lane 0 is confirmed, handed to lane 1, put back, and handed to lane 2. -/
def handedTwiceRun : List LaneEvent :=
  arrival 0 .interactive ⟨1⟩ ++
    [LaneEvent.heartbeat 0 true, .confirm 0, .announce 0, .dropSender 0] ++
    arrival 1 .bulk ⟨1⟩ ++ [LaneEvent.heartbeat 1 false, .reinsert 1] ++ arrival 2 .bulk ⟨1⟩

/-- A lane is handed over, put back and handed over again. -/
theorem pairing_agreement_handedTwice :
    ∃ s, laneServer.ReachesWhere (fun s e => s.groupsAgree e = true) s ∧
      s.log = [.handed 2 0, .reinserted 1 0, .handed 1 0, .confirmed 0] ∧
      PairingAgreement s := by
  have hrun : ∃ s, laneServer.ReachesWhere (fun s e => s.groupsAgree e = true) s ∧
      s.log = [.handed 2 0, .reinserted 1 0, .handed 1 0, .confirmed 0] :=
    ⟨_, ⟨handedTwiceRun, Machine.run_of_exec rfl⟩, rfl⟩
  obtain ⟨s, hs, hlog⟩ := hrun
  exact ⟨s, hs, hlog, pairing_agreement s hs⟩

/-- Lane 1 parks on the reservation of lane 0, which is cancelled. Lane 2, of another
group, takes the nonce and is confirmed, and is handed to the parked lane. -/
def crossGroupRun : List LaneEvent :=
  arrival 0 .interactive ⟨1⟩ ++ arrival 1 .bulk ⟨1⟩ ++
    [LaneEvent.heartbeat 1 true, .heartbeat 0 false, .cancel 0] ++ arrival 2 .interactive ⟨2⟩ ++
    [LaneEvent.heartbeat 2 true, .confirm 2, .poll 1 0]

/-- Without the condition on group tokens agreement fails. -/
theorem pairing_agreement_fails : ∃ s, laneServer.Reaches s ∧ ¬ PairingAgreement s := by
  refine ⟨_, ⟨crossGroupRun, Machine.run_of_exec rfl⟩, fun h => ?_⟩
  obtain ⟨ta, tb, ha, hb, hta, htb, hha, hhb, -, hgroup, -⟩ := h.agree 1 2 (by decide)
  cases hta
  cases htb
  cases hha
  cases hhb
  revert hgroup
  decide

end RtpMux

import RtpMux.LaneStep

/-!
# Parked waiters and their watch channels

A lane that is told `Wait` parks in `wait_for_pair`: it polls the registry and, as long
as the answer is `Wait`, blocks on the watch channel of the reservation it found. When
the sender of that channel is dropped, `changed.changed()` fails at once, every time it
is called. The loop looks only at whether the timeout fired, so it polls again; if the
poll still said `Wait`, the task would spin until the deadline.

The code relies on a dropped sender meaning that the reservation is gone or ready. The
waiter, however, looks the registry up *by nonce*. When the reservation was cancelled or
expired and another lane has reserved the same nonce before the waiter wakes, the poll
finds a building entry whose channel is not the waiter's, and the waiter spins
(`waiter_spins`).

`noReuse` excludes that: no lane reserves a nonce on which a lane of the same peer and
the other class is parked. In every run that keeps to it, a waiter whose channel is
closed is done at its next poll (`waiter_never_spins`). The invariant `ParkInv` follows
the watch senders: a sender inside a building entry is open, a sender outside any entry
is about to be dropped, and the two never coincide.
-/

namespace RtpMux

open LaneServer

/-! ## The condition on runs -/

/-- The task is parked on `nonce` and would take an entry of `ip` and `laneClass`. -/
def LaneTask.parkedFor (t : LaneTask) (nonce : PairingNonce) (ip : IpAddr)
    (laneClass : LaneClass) : Bool :=
  match t.phase, t.hello with
  | .waiting _ _ _ _ _, some h => h.nonce = nonce && t.peer.ip = ip && h.laneClass ≠ laneClass
  | _, _ => false

/-- The step does not reserve a nonce on which a lane of the same peer IP and the other
class is parked. -/
def LaneServer.noReuse (s : LaneServer) : LaneEvent → Bool
  | .register lane _ =>
    match s.tasks.lookup lane with
    | some ⟨_, peer, _, some h, _⟩ =>
      (s.registry.entries.lookup h.nonce).isSome ||
        s.tasks.entries.all fun e => !e.2.parkedFor h.nonce peer.ip h.laneClass
    | _ => true
  | _ => true

/-! ## Senders and waiters -/

/-- The watch channel a parked task has subscribed to. -/
def LanePhase.parkedOn : LanePhase → Option LaneId
  | waiting _ changed _ _ _ => some changed
  | _ => none

/-- The watch sender a task holds outside the registry. -/
def LanePhase.sender : LanePhase → Option LaneId
  | announcing changed => some changed
  | announced changed => some changed
  | cancelled (.building _ _ _ _ _ changed _) => some changed
  | _ => none

/-- The watch sender an entry holds. -/
def PendingLaneEntry.sender : PendingLaneEntry → Option LaneId
  | building _ _ _ _ _ changed _ => some changed
  | ready _ _ => none

/-- A sender that was taken out of its entry and is about to be dropped. -/
def LaneServer.InLimbo (s : LaneServer) (changed : LaneId) : Prop :=
  (∃ lane t, s.tasks.lookup lane = some t ∧ t.phase.sender = some changed) ∨
    changed ∈ s.worker.changed

/-- The lane has registered under `nonce`. -/
def LaneServer.Registered (s : LaneServer) (lane : LaneId) (nonce : PairingNonce) : Prop :=
  ∃ t h, s.tasks.lookup lane = some t ∧ t.hello = some h ∧ h.nonce = nonce ∧
    t.phase.stage = 2

/-- The sender of a watch channel is alive. -/
def LaneServer.Open (s : LaneServer) (changed : LaneId) : Prop :=
  ∃ w, s.watches.lookup changed = some w ∧ w.closed = false

/-- The sender of a watch channel has been dropped. -/
def LaneServer.Closed (s : LaneServer) (changed : LaneId) : Prop :=
  ∃ w, s.watches.lookup changed = some w ∧ w.closed = true

/-- A poll of a lane that presented `h` from `peer` would treat this entry as the
reservation it waits for. -/
def PendingLaneEntry.Awaited (entry : PendingLaneEntry) (h : Hello) (peer : SocketAddr) : Prop :=
  entry.peer.ip = peer.ip ∧ entry.laneClass ≠ h.laneClass

/-- No parked waiter spins: once its channel is closed, its next poll ends the wait. -/
def LaneServer.NeverSpins (s : LaneServer) : Prop :=
  ∀ lane t permit changed seen expiresAt pc h now,
    s.tasks.lookup lane = some t → t.phase = .waiting permit changed seen expiresAt pc →
    t.hello = some h → s.Closed changed →
    ∃ result, (s.registry.pairWaitStep h.nonce h.laneClass t.peer expiresAt now).1 = .done result

/-- The invariant behind it. -/
structure ParkInv (s : LaneServer) : Prop where
  /-- the sender of a building entry is alive, was made for that nonce, and is nowhere else -/
  building : ∀ nonce entry changed, s.registry.entries.lookup nonce = some entry →
    entry.sender = some changed →
    s.Open changed ∧ s.Registered changed nonce ∧ ¬ s.InLimbo changed
  /-- a sender about to be dropped was made by a lane that has registered -/
  limbo : ∀ changed, s.InLimbo changed → ∃ nonce, s.Registered changed nonce
  /-- a building entry that a parked lane waits for is the one it subscribed to -/
  waiter : ∀ lane t h entry changed changed', s.tasks.lookup lane = some t → t.hello = some h →
    t.phase.parkedOn = some changed → s.registry.entries.lookup h.nonce = some entry →
    entry.Awaited h t.peer → entry.sender = some changed' → changed' = changed

/-- At the start no task waits. -/
theorem parkInv_init : ParkInv LaneServer.init where
  building := by simp [LaneServer.init, PendingLaneRegistry.empty]
  limbo := by simp [LaneServer.init, InLimbo]
  waiter := by simp [LaneServer.init]

/-- The invariant gives the property: what a closed waiter could be told to wait for would
be an entry with an open channel, its own. -/
theorem ParkInv.neverSpins {s : LaneServer} (h : ParkInv s) : s.NeverSpins := by
  rintro lane t permit changed seen expiresAt pc hello now ht hph hh ⟨w, hw, hclosed⟩
  obtain ⟨_, _, -, -, -, hpoll⟩ | hpoll | ⟨_, hpoll⟩ | ⟨-, peer', localAddr, laneClass', group,
    expiresAt', changed', permit', hentry, hip, hclass⟩ :=
    s.registry.pairWaitStep_cases hello.nonce hello.laneClass t.peer expiresAt now
  · exact ⟨_, congrArg Prod.fst hpoll⟩
  · exact ⟨_, congrArg Prod.fst hpoll⟩
  · exact ⟨_, congrArg Prod.fst hpoll⟩
  · obtain rfl := h.waiter lane t hello _ changed changed' ht hh (by rw [hph]; rfl) hentry
      ⟨hip, hclass⟩ rfl
    obtain ⟨⟨w', hw', hopen⟩, -⟩ := h.building _ _ _ hentry rfl
    rw [hw] at hw'
    obtain rfl := Option.some.inj hw'
    rw [hopen] at hclosed
    cases hclosed

/-! ## How steps treat senders and waiters -/

/-- A plain move takes no sender along. -/
theorem PhaseMove.sender_eq {φ ψ : LanePhase} (h : PhaseMove φ ψ) : ψ.sender = none := by
  cases h <;> rfl

/-- A plain move does not subscribe to a channel. -/
theorem PhaseMove.parkedOn_eq {φ ψ : LanePhase} (h : PhaseMove φ ψ) {changed : LaneId}
    (hψ : ψ.parkedOn = some changed) : φ.parkedOn = some changed := by
  cases h <;> first | exact hψ | cases hψ

/-- A lane that has registered has done so for good. -/
theorem LaneStep.registered {s s' : LaneServer} {e : LaneEvent} (h : LaneStep s e s')
    {lane : LaneId} {nonce : PairingNonce} (hr : s.Registered lane nonce) :
    s'.Registered lane nonce := by
  obtain ⟨t, hello, ht, hhello, hnonce, hstage⟩ := hr
  obtain ⟨t', ht', hstep⟩ := h.task ht
  have hpos : 0 < t.phase.stage := by omega
  have hle := t'.phase.stage_le
  have hmono := hstep.stage
  exact ⟨t', hello, ht', (hstep.hello hpos).trans hhello, hnonce, by omega⟩

/-- A lane has registered under one nonce. -/
theorem LaneServer.Registered.unique {s : LaneServer} {lane : LaneId} {nonce nonce' : PairingNonce}
    (h : s.Registered lane nonce) (h' : s.Registered lane nonce') : nonce = nonce' := by
  obtain ⟨t, hello, ht, hh, rfl, -⟩ := h
  obtain ⟨t', hello', ht', hh', rfl, -⟩ := h'
  rw [ht] at ht'
  obtain rfl := Option.some.inj ht'
  rw [hh] at hh'
  rw [Option.some.inj hh']

/-- `s'` holds no sender that is not accounted for in `s`: what is about to be dropped was
so before, or sat in an entry that no longer holds a sender. -/
def LimboFrom (s s' : LaneServer) : Prop :=
  ∀ changed, s'.InLimbo changed → s.InLimbo changed ∨
    ∃ nonce entry, s.registry.entries.lookup nonce = some entry ∧ entry.sender = some changed ∧
      ∀ entry', s'.registry.entries.lookup nonce = some entry' → entry'.sender = none

/-- Every parked lane of `s'` was parked in `s` on the same channel. -/
def ParkedFrom (s s' : LaneServer) : Prop :=
  ∀ lane t' h changed, s'.tasks.lookup lane = some t' → t'.hello = some h →
    t'.phase.parkedOn = some changed →
    ∃ t, s.tasks.lookup lane = some t ∧ t.hello = some h ∧ t.peer = t'.peer ∧
      t.phase.parkedOn = some changed

/-- The invariant survives a step that makes no reservation and parks no lane, and closes
only channels whose sender is outside the registry. -/
theorem ParkInv.quiet {s s' : LaneServer} {e : LaneEvent} (h : ParkInv s) (hst : LaneStep s e s')
    (hentry : ∀ nonce entry changed, s'.registry.entries.lookup nonce = some entry →
      entry.sender = some changed → s.registry.entries.lookup nonce = some entry)
    (hopen : ∀ changed, ¬ s.InLimbo changed → s.Open changed → s'.Open changed)
    (hlimbo : LimboFrom s s') (hparked : ParkedFrom s s') : ParkInv s' := by
  constructor
  case building =>
    intro nonce entry changed hlook hsender
    obtain ⟨ho, hr, hl⟩ := h.building nonce entry changed (hentry _ _ _ hlook hsender) hsender
    refine ⟨hopen changed hl ho, hst.registered hr, fun hl' => ?_⟩
    rcases hlimbo changed hl' with hold | ⟨nonce', entry', hlook', hsender', hgone⟩
    · exact hl hold
    · -- the sender would have sat in two entries, but it was made for one nonce
      obtain ⟨-, hr', -⟩ := h.building nonce' entry' changed hlook' hsender'
      obtain rfl := hr.unique hr'
      rw [hgone entry hlook] at hsender
      cases hsender
  case limbo =>
    intro changed hl'
    rcases hlimbo changed hl' with hold | ⟨nonce, entry, hlook, hsender, -⟩
    · obtain ⟨nonce, hr⟩ := h.limbo changed hold
      exact ⟨nonce, hst.registered hr⟩
    · exact ⟨nonce, hst.registered (h.building nonce entry changed hlook hsender).2.1⟩
  case waiter =>
    intro lane t' hello entry changed changed' ht' hh hpark hlook hawait hsender
    obtain ⟨t, ht, hh', hpeer, hpark'⟩ := hparked lane t' hello changed ht' hh hpark
    refine h.waiter lane t hello entry changed changed' ht hh' hpark'
      (hentry _ _ _ hlook hsender) ?_ hsender
    rw [hpeer]
    exact hawait

/-- Closing a channel leaves the others open. -/
theorem open_closeWatch {watches : HashMap LaneId Watch} {c changed : LaneId}
    (hne : changed ≠ c) (h : ∃ w, watches.lookup changed = some w ∧ w.closed = false) :
    ∃ w, (closeWatch watches c).lookup changed = some w ∧ w.closed = false := by
  obtain ⟨w, hlook, hopen⟩ := h
  refine ⟨w, ?_, hopen⟩
  rw [closeWatch]
  split
  · rw [AList.lookup_insert_ne hne, hlook]
  · exact hlook

/-- A watch whose sender is not dropped stays open. -/
theorem open_foldl_closeWatch {c : LaneId} :
    ∀ {senders : List LaneId} {watches : HashMap LaneId Watch}, c ∉ senders →
      (∃ w, watches.lookup c = some w ∧ w.closed = false) →
      ∃ w, (senders.foldl closeWatch watches).lookup c = some w ∧ w.closed = false := by
  intro senders
  induction senders with
  | nil => exact fun _ ho => ho
  | cons c' senders ih =>
    intro watches hmem ho
    rw [List.mem_cons, not_or] at hmem
    exact ih hmem.2 (open_closeWatch hmem.1 ho)

/-- A task moves on to a phase with no sender of its own. -/
theorem LaneServer.InLimbo.of_setPhase {s s₁ : LaneServer} {lane changed : LaneId} {t : LaneTask}
    {phase : LanePhase} (h : (s₁.setPhase lane t phase).InLimbo changed)
    (htasks : s₁.tasks = s.tasks) (hworker : s₁.worker = s.worker) (hphase : phase.sender = none) :
    s.InLimbo changed := by
  obtain ⟨lane', t', ht', hsender⟩ | hmem := h
  · rw [lookup_setPhase] at ht'
    split at ht'
    · obtain rfl := Option.some.inj ht'
      simp only [hphase] at hsender
      cases hsender
    · rw [htasks] at ht'
      exact .inl ⟨lane', t', ht', hsender⟩
  · right
    rw [← hworker]
    exact hmem

/-- A task that moves on without a sender brings none into limbo. -/
theorem limboFrom_setPhase {s s₁ : LaneServer} {lane : LaneId} {t : LaneTask} {phase : LanePhase}
    (htasks : s₁.tasks = s.tasks) (hworker : s₁.worker = s.worker) (hphase : phase.sender = none) :
    LimboFrom s (s₁.setPhase lane t phase) :=
  fun _ hl => .inl (hl.of_setPhase htasks hworker hphase)

/-- A task moves on and takes a sender along that sat in an entry, or that it had. -/
theorem limboFrom_take {s s₁ : LaneServer} {lane : LaneId} {t : LaneTask} {phase : LanePhase}
    {c : LaneId} (htasks : s₁.tasks = s.tasks) (hworker : s₁.worker = s.worker)
    (hphase : phase.sender = some c)
    (hfrom : s.InLimbo c ∨ ∃ nonce entry, s.registry.entries.lookup nonce = some entry ∧
      entry.sender = some c ∧
      ∀ entry', s₁.registry.entries.lookup nonce = some entry' → entry'.sender = none) :
    LimboFrom s (s₁.setPhase lane t phase) := by
  rintro changed (⟨lane', t', ht', hsender⟩ | hmem)
  · rw [lookup_setPhase] at ht'
    split at ht'
    · obtain rfl := Option.some.inj ht'
      obtain rfl : c = changed := Option.some.inj (hphase.symm.trans hsender)
      exact hfrom
    · rw [htasks] at ht'
      exact .inl (.inl ⟨lane', t', ht', hsender⟩)
  · refine .inl (.inr ?_)
    rw [← hworker]
    exact hmem

/-- A task moves on without subscribing to a channel. -/
theorem parkedFrom_setPhase {s s₁ : LaneServer} {lane : LaneId} {t t' : LaneTask}
    {phase : LanePhase} (htasks : s₁.tasks = s.tasks) (ht : s.tasks.lookup lane = some t)
    (hpark : ∀ changed, phase.parkedOn = some changed →
      t.phase.parkedOn = some changed ∧ t'.hello = t.hello ∧ t'.peer = t.peer) :
    ParkedFrom s (s₁.setPhase lane t' phase) := by
  intro lane₁ t₁ hello changed ht₁ hh hparked
  rw [lookup_setPhase] at ht₁
  split at ht₁
  · rename_i hl
    subst hl
    obtain rfl := Option.some.inj ht₁
    obtain ⟨hold, hhello, hpeer⟩ := hpark changed hparked
    exact ⟨t, ht, hhello.symm.trans hh, hpeer.symm, hold⟩
  · rw [htasks] at ht₁
    exact ⟨t₁, ht₁, hh, rfl, hparked⟩

/-- A task moves on to a phase with neither a sender nor a subscription, and the registry
and the channels stay. -/
theorem ParkInv.plain {s : LaneServer} {e : LaneEvent} {lane : LaneId} {t t' : LaneTask}
    {phase : LanePhase} (h : ParkInv s) (ht : s.tasks.lookup lane = some t)
    (hst : LaneStep s e (s.setPhase lane t' phase)) (hsender : phase.sender = none)
    (hpark : ∀ changed, phase.parkedOn = some changed →
      t.phase.parkedOn = some changed ∧ t'.hello = t.hello ∧ t'.peer = t.peer) :
    ParkInv (s.setPhase lane t' phase) :=
  h.quiet hst (fun _ _ _ hlook _ => hlook) (fun _ _ ho => ho) (limboFrom_setPhase rfl rfl hsender)
    (parkedFrom_setPhase rfl ht hpark)

/-- A reservation is made with a new channel, and nobody is parked where it appears. -/
theorem ParkInv.reserve {s : LaneServer} {lane : LaneId} {now : Instant} {t : LaneTask}
    {permit : PendingLanePermit} {h : Hello} (hinv : ParkInv s)
    (hC : s.noReuse (.register lane now) = true) (ht : s.tasks.lookup lane = some t)
    (hph : t.phase = .admitted permit) (hh : t.hello = some h)
    (hfree : s.registry.entries.lookup h.nonce = none) :
    ParkInv (setPhase { s with
      registry := { s.registry with
        entries := s.registry.entries.insert h.nonce (.building t.peer t.localAddr
          h.laneClass h.group (now + pairingDeadline) lane permit) }
      watches := s.watches.insert lane ⟨0, false⟩ } lane t .reserved) := by
  have hst : LaneStep s (.register lane now) _ := .reserve ht hph hh hfree
  -- the lane has not registered before, so its channel name is new
  have hnew : ∀ {nonce}, ¬ s.Registered lane nonce := by
    rintro nonce ⟨t', _, ht', -, -, hstage⟩
    rw [ht] at ht'
    obtain rfl := Option.some.inj ht'
    rw [hph] at hstage
    cases hstage
  constructor
  case building =>
    intro nonce entry changed hlook hsender
    simp only [LaneServer.setPhase, HashMap.lookup_insert_eq] at hlook
    split at hlook
    · rename_i hn
      obtain rfl := Option.some.inj hlook
      obtain rfl : lane = changed := Option.some.inj hsender
      refine ⟨⟨⟨0, false⟩, by simp [LaneServer.setPhase], rfl⟩, ?_, fun hl => ?_⟩
      · exact ⟨{ t with phase := .reserved }, h, by simp [LaneServer.setPhase], hh, hn.symm, rfl⟩
      · obtain ⟨_, hr⟩ := hinv.limbo lane (hl.of_setPhase rfl rfl rfl)
        exact hnew hr
    · obtain ⟨⟨w, hw, ho⟩, hr, hl⟩ := hinv.building nonce entry changed hlook hsender
      have hne : changed ≠ lane := by
        rintro rfl
        exact hnew hr
      refine ⟨⟨w, ?_, ho⟩, hst.registered hr, fun hl' => hl (hl'.of_setPhase rfl rfl rfl)⟩
      simp only [LaneServer.setPhase]
      rw [AList.lookup_insert_ne hne, hw]
  case limbo =>
    intro changed hl
    obtain ⟨nonce, hr⟩ := hinv.limbo changed (hl.of_setPhase rfl rfl rfl)
    exact ⟨nonce, hst.registered hr⟩
  case waiter =>
    intro lane' t' hello entry changed changed' ht' hh' hpark hlook hawait hsender
    rw [lookup_setPhase] at ht'
    split at ht'
    · obtain rfl := Option.some.inj ht'
      cases hpark
    simp only [LaneServer.setPhase, HashMap.lookup_insert_eq] at hlook
    split at hlook
    · rename_i hn
      obtain rfl := Option.some.inj hlook
      obtain ⟨hip, hclass⟩ := hawait
      -- the condition of the run: no such waiter exists
      exfalso
      obtain ⟨expectedClass, peer, localAddr, hello₀, phase⟩ := t
      simp only at hh
      subst hh
      have hall : (s.tasks.entries.all fun e => !e.2.parkedFor h.nonce peer.ip h.laneClass) =
          true := by simpa [noReuse, ht, hfree] using hC
      have hnot := List.all_eq_true.mp hall _ (HashMap.lookup_eq_some_iff.mp ht')
      obtain ⟨_, peer', _, hello', phase'⟩ := t'
      simp only at hh' hpark
      subst hh'
      cases phase' <;> cases hpark
      simp only [PendingLaneEntry.peer, PendingLaneEntry.laneClass] at hip hclass
      simp [LaneTask.parkedFor, hn, hip, hclass.symm] at hnot
    · exact hinv.waiter lane' t' hello entry changed changed' ht' hh' hpark hlook hawait hsender

/-- A lane parks on the reservation it found. -/
theorem ParkInv.subscribe {s : LaneServer} {lane : LaneId} (now : Instant) {t : LaneTask}
    {permit permit' : PendingLanePermit} {h : Hello} {peer localAddr : SocketAddr}
    {laneClass : LaneClass} {expiresAt : Instant} {changed : LaneId} (hinv : ParkInv s)
    (ht : s.tasks.lookup lane = some t) (hph : t.phase = .admitted permit) (hh : t.hello = some h)
    (hentry : s.registry.entries.lookup h.nonce =
      some (.building peer localAddr laneClass h.group expiresAt changed permit'))
    (hip : peer.ip = t.peer.ip) (hclass : laneClass ≠ h.laneClass) :
    ParkInv (s.setPhase lane t
      (.waiting permit changed (s.watchVersion changed) expiresAt .heartbeat)) := by
  have hst : LaneStep s (.register lane now) _ := .subscribe ht hph hh hentry hip hclass
  constructor
  case building =>
    intro nonce entry c hlook hsender
    obtain ⟨ho, hr, hl⟩ := hinv.building nonce entry c hlook hsender
    exact ⟨ho, hst.registered hr, fun hl' => hl (hl'.of_setPhase rfl rfl rfl)⟩
  case limbo =>
    intro c hl
    obtain ⟨nonce, hr⟩ := hinv.limbo c (hl.of_setPhase rfl rfl rfl)
    exact ⟨nonce, hst.registered hr⟩
  case waiter =>
    intro lane' t' hello entry c c' ht' hh' hpark hlook hawait hsender
    rw [lookup_setPhase] at ht'
    split at ht'
    · obtain rfl := Option.some.inj ht'
      obtain rfl : h = hello := Option.some.inj (hh.symm.trans hh')
      obtain rfl : changed = c := Option.some.inj hpark
      have heq : s.registry.entries.lookup h.nonce = some entry := hlook
      rw [hentry] at heq
      obtain rfl := Option.some.inj heq
      exact (Option.some.inj hsender).symm
    · exact hinv.waiter lane' t' hello entry c c' ht' hh' hpark hlook hawait hsender

/-- **Step lemma.** A step that reuses no nonce keeps the invariant. -/
theorem ParkInv.step {s s' : LaneServer} {e : LaneEvent} (h : ParkInv s)
    (hC : s.noReuse e = true) (hst : s.step e = some s') : ParkInv s' := by
  -- a sender leaves its entry only with the task or the worker that took the entry, and the waiter
  -- of its watch stays parked on it; a new task has neither a sender nor a watch
  have hstep := LaneStep.of_step hst
  have herase : ∀ n nonce entry, (s.registry.entries.erase n).lookup nonce = some entry →
      s.registry.entries.lookup nonce = some entry := by
    intro n nonce entry hlook
    rw [HashMap.lookup_erase_eq] at hlook
    split at hlook
    · cases hlook
    · exact hlook
  have hnew : ∀ {lane t'}, s.tasks.lookup lane = none → s'.tasks = s.tasks.insert lane t' →
      s'.worker = s.worker → t'.phase.sender = none → t'.phase.parkedOn = none →
      LimboFrom s s' ∧ ParkedFrom s s' := by
    intro lane t' hnone htasks hworker hsender hpark
    refine ⟨?_, ?_⟩
    · rintro changed (⟨lane₁, t₁, ht₁, hs₁⟩ | hmem)
      · rw [htasks, HashMap.lookup_insert_eq] at ht₁
        split at ht₁
        · obtain rfl := Option.some.inj ht₁
          rw [hsender] at hs₁
          cases hs₁
        · exact .inl (.inl ⟨lane₁, t₁, ht₁, hs₁⟩)
      · exact .inl (.inr (hworker ▸ hmem))
    · intro lane₁ t₁ hello changed ht₁ hh hp₁
      rw [htasks, HashMap.lookup_insert_eq] at ht₁
      split at ht₁
      · obtain rfl := Option.some.inj ht₁
        rw [hpark] at hp₁
        cases hp₁
      · exact ⟨t₁, ht₁, hh, rfl, hp₁⟩
  cases LaneStep.of_step hst with
  | accepted hnone =>
    obtain ⟨hlimbo, hparked⟩ := hnew hnone rfl rfl rfl rfl
    exact h.quiet hstep (fun _ _ _ hlook _ => hlook) (fun _ _ ho => ho) hlimbo hparked
  | overCapacity hnone =>
    obtain ⟨hlimbo, hparked⟩ := hnew hnone rfl rfl rfl rfl
    exact h.quiet hstep (fun _ _ _ hlook _ => hlook) (fun _ _ ho => ho) hlimbo hparked
  | helloRejected hello ht hph => exact h.plain ht hstep rfl nofun
  | helloRead hello ht hph hclass => exact h.plain ht hstep rfl nofun
  | move ht hmove =>
    exact h.plain ht hstep hmove.sender_eq fun _ hpark => ⟨hmove.parkedOn_eq hpark, rfl, rfl⟩
  | reserve ht hph hh hfree => exact h.reserve hC ht hph hh hfree
  | @subscribe lane now t permit hello peer localAddr laneClass expiresAt changed permit' ht hph hh
      hentry hip hclass => exact h.subscribe now ht hph hh hentry hip hclass
  | offer ht hph hh hentry hip hclass hgroup =>
    exact h.quiet hstep (fun nonce entry _ hlook _ => herase _ nonce entry hlook)
      (fun _ _ ho => ho) (limboFrom_setPhase rfl rfl rfl) (parkedFrom_setPhase rfl ht nofun)
  | handOver ht hph hh hentry hip hclass =>
    exact h.quiet hstep (fun nonce entry _ hlook _ => herase _ nonce entry hlook)
      (fun _ _ ho => ho) (limboFrom_setPhase rfl rfl rfl) (parkedFrom_setPhase rfl ht nofun)
  | @cancel lane t hello localAddr group expiresAt changed permit ht hph hh hentry =>
    refine h.quiet hstep (fun nonce entry _ hlook _ => herase _ nonce entry hlook)
      (fun _ _ ho => ho) (limboFrom_take rfl rfl rfl (.inr ⟨hello.nonce, _, hentry, rfl, ?_⟩))
      (parkedFrom_setPhase rfl ht nofun)
    intro entry' hlook
    simp at hlook
  | cancelMissed ht hph hh hnone => exact h.plain ht hstep rfl nofun
  | @dropEntry lane t peer localAddr laneClass group expiresAt changed permit ht hph =>
    refine h.quiet hstep (fun _ _ _ hlook _ => hlook) (fun c hc ho => ?_)
      (limboFrom_setPhase rfl rfl rfl) (parkedFrom_setPhase rfl ht nofun)
    refine open_closeWatch ?_ ho
    rintro rfl
    exact hc (.inl ⟨lane, t, ht, by rw [hph]; rfl⟩)
  | @confirm lane t hello localAddr group expiresAt changed permit ht hph hh hentry =>
    refine h.quiet hstep (fun nonce entry c hlook hsender => ?_) (fun _ _ ho => ho)
      (limboFrom_take rfl rfl rfl (.inr ⟨hello.nonce, _, hentry, rfl, ?_⟩))
      (parkedFrom_setPhase rfl ht nofun)
    · simp only [LaneServer.setPhase, HashMap.lookup_insert_eq] at hlook
      split at hlook
      · obtain rfl := Option.some.inj hlook
        cases hsender
      · exact herase _ nonce entry hlook
    · intro entry' hlook
      simp only [HashMap.lookup_insert_eq, if_true] at hlook
      obtain rfl := Option.some.inj hlook
      rfl
  | confirmMissed ht hph hh hnone hreg =>
    refine h.quiet hstep (fun nonce entry c hlook hsender => ?_) (fun _ _ ho => ho)
      (limboFrom_setPhase rfl rfl rfl) (parkedFrom_setPhase rfl ht nofun)
    obtain rfl | ⟨entry₀, hentry₀, rfl⟩ := hreg
    · exact hlook
    · simp only [LaneServer.setPhase, HashMap.lookup_insert_eq] at hlook
      split at hlook
      · rename_i hn
        rw [hn, hentry₀, hlook]
      · exact herase _ nonce entry hlook
  | @announce lane t changed w ht hph hw =>
    refine h.quiet hstep (fun _ _ _ hlook _ => hlook) (fun c hc ho => ?_)
      (limboFrom_take rfl rfl rfl (.inl (.inl ⟨lane, t, ht, by rw [hph]; rfl⟩)))
      (parkedFrom_setPhase rfl ht nofun)
    obtain ⟨w', hw', hopen⟩ := ho
    refine ⟨w', ?_, hopen⟩
    have hne : c ≠ changed := by
      rintro rfl
      exact hc (.inl ⟨lane, t, ht, by rw [hph]; rfl⟩)
    simp only [LaneServer.setPhase]
    rw [AList.lookup_insert_ne hne, hw']
  | @dropSender lane t changed ht hph =>
    refine h.quiet hstep (fun _ _ _ hlook _ => hlook) (fun c hc ho => ?_)
      (limboFrom_setPhase rfl rfl rfl) (parkedFrom_setPhase rfl ht nofun)
    refine open_closeWatch ?_ ho
    rintro rfl
    exact hc (.inl ⟨lane, t, ht, by rw [hph]; rfl⟩)
  | reinsert ht hph hh hfree =>
    refine h.quiet hstep (fun nonce entry c hlook hsender => ?_) (fun _ _ ho => ho)
      (limboFrom_setPhase rfl rfl rfl) (parkedFrom_setPhase rfl ht nofun)
    simp only [LaneServer.setPhase, HashMap.lookup_insert_eq] at hlook
    split at hlook
    · obtain rfl := Option.some.inj hlook
      cases hsender
    · exact hlook
  | @dropPaired lane t permit permits ht hph =>
    refine h.quiet hstep (fun nonce entry c hlook hsender => ?_) (fun _ _ ho => ho)
      (limboFrom_setPhase rfl rfl rfl) (parkedFrom_setPhase rfl ht nofun)
    simpa [LaneServer.setPhase, releasePermit] using hlook
  | @dropRejected lane t permit permits ht hph =>
    refine h.quiet hstep (fun nonce entry c hlook hsender => ?_) (fun _ _ ho => ho)
      (limboFrom_setPhase rfl rfl rfl) (parkedFrom_setPhase rfl ht nofun)
    simpa [LaneServer.setPhase, releasePermit] using hlook
  | @expire now hidle =>
    have hspec := s.registry.expire_spec now
    refine h.quiet hstep (fun nonce entry c hlook hsender => ?_) (fun _ _ ho => ho) ?_
      fun _ t' _ _ ht' hh hpark => ⟨t', ht', hh, rfl, hpark⟩
    · rcases hspec.lookup nonce with heq | hnone
      · rw [← heq]
        exact hlook
      · have : (s.registry.expire now).2.2.entries.lookup nonce = some entry := hlook
        rw [hnone] at this
        cases this
    · rintro c (hheld | hmem)
      · exact .inl (.inl hheld)
      · obtain ⟨nonce, peer, localAddr, laneClass, group, expiresAt, permit, hlook, hgone⟩ :=
          hspec.changed c hmem
        refine .inr ⟨nonce, _, hlook, rfl, fun entry' hlook' => ?_⟩
        rw [show (s.registry.expire now).2.2.entries.lookup nonce =
          some entry' from hlook'] at hgone
        cases hgone
  | dropSenders =>
    refine h.quiet hstep (fun _ _ _ hlook _ => hlook) (fun c hc ho => ?_) ?_
      fun _ t' _ _ ht' hh hpark => ⟨t', ht', hh, rfl, hpark⟩
    · exact open_foldl_closeWatch (fun hmem => hc (.inr hmem)) ho
    · rintro c (hheld | hmem)
      · exact .inl (.inl hheld)
      · cases hmem
  | reap hw =>
    refine h.quiet hstep (fun nonce entry c hlook hsender => ?_) (fun _ _ ho => ho) ?_
      fun _ t' _ _ ht' hh hpark => ⟨t', ht', hh, rfl, hpark⟩
    · simpa [releasePermit] using hlook
    · rintro c (hheld | hmem)
      · exact .inl (.inl hheld)
      · cases hmem

/-- **A parked waiter never spins.** In every run in which no nonce is reserved while a
matching lane is parked on it, a waiter whose watch sender has been dropped is done at its
next poll. -/
theorem waiter_never_spins (s : LaneServer)
    (h : laneServer.ReachesWhere (fun s e => s.noReuse e = true) s) : s.NeverSpins := by
  have hinv : ParkInv s :=
    h.invariant parkInv_init fun _ _ _ hs hC hst => hs.step hC hst
  exact hinv.neverSpins

/-- Lane 1 parks on the reservation of lane 0, which is then confirmed: the sender is
dropped while lane 1 has not polled again. -/
def confirmedRun : List LaneEvent :=
  arrival 0 .interactive ⟨1⟩ ++ arrival 1 .bulk ⟨1⟩ ++
    [LaneEvent.heartbeat 1 true, .poll 1 0, .heartbeat 0 true, .confirm 0, .announce 0,
      .dropSender 0,
      .wake 1]

/-- The entry that a waiter watched is confirmed, its channel closed, and the waiter polls again. -/
theorem waiter_never_spins_confirmed :
    ∃ s, laneServer.ReachesWhere (fun s e => s.noReuse e = true) s ∧ s.Closed 0 ∧
      (s.tasks.lookup 1).map LaneTask.phase =
        some (.waiting ⟨.v4 0x0a000001#32, 1⟩ 0 1 pairingDeadline .polling) ∧ s.NeverSpins := by
  have hrun : ∃ s, laneServer.ReachesWhere (fun s e => s.noReuse e = true) s ∧ s.Closed 0 ∧
      (s.tasks.lookup 1).map LaneTask.phase =
        some (.waiting ⟨.v4 0x0a000001#32, 1⟩ 0 1 pairingDeadline .polling) :=
    ⟨_, ⟨confirmedRun, Machine.run_of_exec rfl⟩, ⟨⟨1, true⟩, rfl, rfl⟩, rfl⟩
  obtain ⟨s, hs, hclosed, hphase⟩ := hrun
  exact ⟨s, hs, hclosed, hphase, waiter_never_spins s hs⟩

/-- Lane 1 parks on the reservation of lane 0, which is cancelled. Lane 2 reserves the
nonce before lane 1 has looked again. -/
def reusedRun : List LaneEvent :=
  arrival 0 .interactive ⟨1⟩ ++ arrival 1 .bulk ⟨1⟩ ++
    [LaneEvent.heartbeat 1 true, .poll 1 0, .heartbeat 0 false, .cancel 0, .dropEntry 0] ++
    arrival 2 .interactive ⟨1⟩ ++ [LaneEvent.wake 1]

/-- After that run the waiter spins: its channel is closed, yet its poll says `Wait`, and
polling and waking up bring it back to where it was. -/
theorem waiter_spins : ∃ s, laneServer.Reaches s ∧ ¬ s.NeverSpins ∧
    laneServer.Run (fun _ _ => True) s [.poll 1 0, .wake 1] s := by
  refine ⟨_, ⟨reusedRun, Machine.run_of_exec rfl⟩, fun h => ?_, Machine.run_of_exec rfl⟩
  obtain ⟨result, hdone⟩ := h 1 _ _ _ _ _ _ _ 0 rfl rfl rfl ⟨_, rfl, rfl⟩
  revert hdone
  exact nofun

end RtpMux

import RtpMux.LaneStep
import RtpMux.Machine

/-!
# The expiry worker (`run_pending_lane_expiry` in `server.rs`)

The worker sleeps until the earliest deadline of any entry, then takes out what is
due. Its deadline is a snapshot: between the snapshot and the sleep other tasks
reserve, confirm and reinsert lanes. Every such operation calls `notify_one` after it
has released the lock, and a notification sends the worker round its loop again.

Two results. `ExpireExact` says what `expire` removes and returns, for every registry
and every instant. `SleepInv` is why the worker never oversleeps: past its snapshot,
a deadline earlier than the armed one can only be there while the operation that
brought it still owes its `notify_one`, or while a notification waits for the worker.

The operations run here with arbitrary arguments, so the result does not depend on
what the accept tasks are promised about each other. The notifier is
`tokio::sync::Notify`, of which two documented facts are used: `notify_one` is never
forgotten before the next poll, and a kept notification makes that poll ready.
-/

namespace RtpMux

open PendingLaneRegistry

/-! ## What `expire` removes and returns -/

/-- The record `expire` returns for an entry. -/
def PendingLaneEntry.expired (nonce : PairingNonce) : PendingLaneEntry → ExpiredPendingLane
  | building peer localAddr laneClass _ _ _ permit =>
    .building nonce peer localAddr laneClass permit
  | ready lane _ => .ready nonce lane

/-- The nonce a record was under. -/
def ExpiredPendingLane.nonce : ExpiredPendingLane → PairingNonce
  | building nonce _ _ _ _ => nonce
  | ready nonce _ => nonce

@[simp] theorem PendingLaneEntry.expired_nonce (entry : PendingLaneEntry) (nonce : PairingNonce) :
    (entry.expired nonce).nonce = nonce := by
  cases entry <;> rfl

/-- `expire` at `now`, exactly: the entries due are gone and returned, each once, and
nothing else has changed. -/
structure ExpireExact (reg : PendingLaneRegistry) (now : Instant)
    (removed : List ExpiredPendingLane) (reg' : PendingLaneRegistry) : Prop where
  admitted : reg'.admitted = reg.admitted
  perPeer : reg'.perPeer = reg.perPeer
  /-- what is left is what was not due -/
  left : ∀ nonce entry, reg'.entries.lookup nonce = some entry ↔
    reg.entries.lookup nonce = some entry ∧ now < entry.expiresAt
  /-- what is returned is what was due -/
  returned : ∀ record, record ∈ removed ↔
    ∃ nonce entry, reg.entries.lookup nonce = some entry ∧ entry.expiresAt ≤ now ∧
      record = entry.expired nonce
  /-- each once -/
  once : (removed.map ExpiredPendingLane.nonce).Nodup

namespace PendingLaneRegistry

/-- One turn of the loop, by what the entry's lookup says. -/
theorem expireOne_eq (removed : List ExpiredPendingLane) (changed : List LaneId)
    (r : PendingLaneRegistry) (nonce : PairingNonce) :
    ∃ changed', expireOne (removed, changed, r) nonce =
      (removed ++ ((r.entries.lookup nonce).map fun e => e.expired nonce).toList, changed',
        { r with entries := r.entries.erase nonce }) := by
  simp only [expireOne]
  split
  · rename_i hlook
    refine ⟨changed, ?_⟩
    rw [HashMap.erase_of_lookup_none hlook, hlook]
    simp
  · rename_i hlook
    rw [hlook]
    exact ⟨_, rfl⟩
  · rename_i hlook
    rw [hlook]
    exact ⟨_, rfl⟩

/-- The whole loop over distinct nonces: each one's entry is appended as the registry
had it at the start, and erased. -/
theorem expire_loop : ∀ (nonces : List PairingNonce), nonces.Nodup →
    ∀ (removed : List ExpiredPendingLane) (changed : List LaneId) (r : PendingLaneRegistry),
    ∃ changed' entries', nonces.foldl expireOne (removed, changed, r) =
        (removed ++ nonces.filterMap fun n => (r.entries.lookup n).map fun e => e.expired n,
          changed', { r with entries := entries' }) ∧
      ∀ n, entries'.lookup n = if n ∈ nonces then none else r.entries.lookup n := by
  intro nonces
  induction nonces with
  | nil =>
    intro _ removed changed r
    exact ⟨changed, r.entries, by simp, by simp⟩
  | cons nonce rest ih =>
    intro hnodup removed changed r
    obtain ⟨hnot, hrest⟩ := List.nodup_cons.mp hnodup
    obtain ⟨changed₁, hone⟩ := expireOne_eq removed changed r nonce
    obtain ⟨changed₂, entries', hloop, hlook⟩ := ih hrest
      (removed ++ ((r.entries.lookup nonce).map fun e => e.expired nonce).toList) changed₁
      { r with entries := r.entries.erase nonce }
    -- the later nonces see the entries the loop started with
    have hsame : ∀ n ∈ rest, (r.entries.erase nonce).lookup n = r.entries.lookup n := by
      intro n hn
      rw [HashMap.lookup_erase_eq, if_neg]
      rintro rfl
      exact hnot hn
    refine ⟨changed₂, entries', ?_, ?_⟩
    · rw [List.foldl_cons, hone, hloop]
      congr 1
      rw [List.append_assoc]
      congr 1
      rw [List.filterMap_congr fun n hn => by rw [hsame n hn]]
      cases hn : r.entries.lookup nonce <;> simp [hn]
    · intro n
      rw [hlook n]
      simp only [HashMap.lookup_erase_eq, List.mem_cons]
      grind

theorem nodup_expiredNonces (reg : PendingLaneRegistry) (now : Instant) :
    (reg.expiredNonces now).Nodup :=
  (List.NodupKeys.sublist List.filter_sublist reg.entries.nodupKeys)

/-- The nonces that are reaped are those whose deadline is over. -/
theorem mem_expiredNonces {reg : PendingLaneRegistry} {now : Instant} {nonce : PairingNonce} :
    nonce ∈ reg.expiredNonces now ↔
      ∃ entry, reg.entries.lookup nonce = some entry ∧ entry.expiresAt ≤ now := by
  simp only [expiredNonces, List.mem_map, List.mem_filter, decide_eq_true_eq,
    HashMap.lookup_eq_some_iff]
  constructor
  · rintro ⟨⟨n, entry⟩, ⟨hmem, hdue⟩, rfl⟩
    exact ⟨entry, hmem, hdue⟩
  · rintro ⟨entry, hmem, hdue⟩
    exact ⟨⟨nonce, entry⟩, ⟨hmem, hdue⟩, rfl⟩

/-- **`expire` reaps exactly**, for every registry and every instant. -/
theorem expire_exact (reg : PendingLaneRegistry) (now : Instant) :
    ExpireExact reg now (reg.expire now).1 (reg.expire now).2.2 := by
  obtain ⟨changed, entries', hloop, hlook⟩ :=
    expire_loop (reg.expiredNonces now) (nodup_expiredNonces reg now) [] [] reg
  rw [PendingLaneRegistry.expire, hloop]
  refine ⟨rfl, rfl, ?_, ?_, ?_⟩
  · intro nonce entry
    simp only [hlook nonce]
    split
    · rename_i hmem
      obtain ⟨due, hentry, hdue⟩ := mem_expiredNonces.mp hmem
      simp only [hentry, Option.some.injEq, reduceCtorEq, false_iff, not_and, not_lt]
      rintro rfl
      exact hdue
    · rename_i hmem
      constructor
      · intro hentry
        exact ⟨hentry, not_le.mp fun hdue => hmem (mem_expiredNonces.mpr ⟨entry, hentry, hdue⟩)⟩
      · exact fun h => h.1
  · intro record
    simp only [List.nil_append, List.mem_filterMap, mem_expiredNonces, Option.map_eq_some_iff]
    constructor
    · rintro ⟨nonce, ⟨entry, hentry, hdue⟩, entry', hentry', rfl⟩
      obtain rfl := Option.some.inj (hentry.symm.trans hentry')
      exact ⟨nonce, entry, hentry, hdue, rfl⟩
    · rintro ⟨nonce, entry, hentry, hdue, rfl⟩
      exact ⟨nonce, ⟨entry, hentry, hdue⟩, entry, hentry, rfl⟩
  · have hnonces : ((reg.expiredNonces now).filterMap fun n =>
        (reg.entries.lookup n).map fun e => e.expired n).map ExpiredPendingLane.nonce
          = reg.expiredNonces now := by
      rw [List.map_filterMap]
      conv_rhs => rw [← List.filterMap_some (l := reg.expiredNonces now)]
      apply List.filterMap_congr
      intro n hn
      obtain ⟨entry, hentry, -⟩ := mem_expiredNonces.mp hn
      simp [hentry]
    rw [List.nil_append, hnonces]
    exact nodup_expiredNonces reg now

end PendingLaneRegistry

/-! ## The worker beside the registry's operations -/

/-- `tokio::sync::Notify` with one task that waits on it, as far as the worker relies
on it. `Stored` says that a notification is kept: as a permit, or by the waiting task
itself once it has been notified. -/
structure Notify (N : Type) where
  new : N
  /-- `Notify::notify_one` -/
  notifyOne : N → N
  /-- poll the waiting task's `Notified`: whether it is ready, and what is left -/
  poll : N → Bool × N
  /-- drop the waiting task's `Notified` -/
  dropNotified : N → N
  Stored : N → Prop
  stored_notifyOne : ∀ n, Stored (notifyOne n)
  ready_of_stored : ∀ n, Stored n → (poll n).1 = true

/-- Where the worker's loop stands. -/
inductive ExpiryLoop where
  /-- at the top of the loop -/
  | top
  /-- `notified()` has been called -/
  | armed
  /-- past `next_expiry`, waiting for `changed` and, given a deadline, for the timer -/
  | waiting (deadline : Option Instant)
  /-- the timer has fired, `expire` comes next -/
  | firing (deadline : Instant)
  deriving DecidableEq, Repr

/-- The registry's operations, with all the arguments a caller could pass. -/
inductive RegistryOp where
  | tryAdmit (peer : IpAddr) (lane : LaneId)
  | dropPermit (permit : PendingLanePermit)
  | registerAdmitted (nonce : PairingNonce) (laneClass : LaneClass) (peer localAddr : SocketAddr)
      (group : GroupToken) (permit : PendingLanePermit) (now : Instant) (lane : LaneId)
  | confirmReservation (nonce : PairingNonce) (lane : PreparedLane)
  | pairWaitStep (nonce : PairingNonce) (laneClass : LaneClass) (peer : SocketAddr)
      (expiresAt now : Instant)
  | reinsertReadyLane (nonce : PairingNonce) (lane : PendingLane) (expiresAt : Instant)
  | cancelReservation (nonce : PairingNonce) (peer : SocketAddr) (laneClass : LaneClass)
  deriving DecidableEq, Repr

/-- The critical section of an operation: the registry it leaves, and whether the
operation calls `notify_one` after releasing the lock. -/
def RegistryOp.run (reg : PendingLaneRegistry) : RegistryOp → PendingLaneRegistry × Bool
  | tryAdmit peer lane =>
    match reg.tryAdmit peer lane with
    | .ok (_, reg') => (reg', false)
    | .error _ => (reg, false)
  | dropPermit permit => (reg.dropPermit permit, false)
  | registerAdmitted nonce laneClass peer localAddr group permit now lane =>
    match reg.registerAdmitted nonce laneClass peer localAddr group (some permit) now lane with
    | .ok (.reserved, _, reg') => (reg', true)
    | .ok (.pair _ _, _, reg') => (reg', true)
    | .ok (_, _, reg') => (reg', false)
    | .error _ => (reg, false)
  | confirmReservation nonce lane =>
    match reg.confirmReservation nonce lane with
    | (.ok _, reg') => (reg', true)
    | (.error _, reg') => (reg', false)
  | pairWaitStep nonce laneClass peer expiresAt now =>
    match reg.pairWaitStep nonce laneClass peer expiresAt now with
    | (.done (.pair _), reg') => (reg', true)
    | (_, reg') => (reg', false)
  | reinsertReadyLane nonce lane expiresAt =>
    match reg.reinsertReadyLane nonce lane expiresAt with
    | (.ok _, reg') => (reg', true)
    | (.error _, reg') => (reg', false)
  | cancelReservation nonce peer laneClass =>
    match reg.cancelReservation nonce peer laneClass with
    | (some _, reg') => (reg', true)
    | (none, reg') => (reg', false)

/-- The registry, its notifier and the worker. -/
structure ExpirySystem (N : Type) where
  registry : PendingLaneRegistry
  notify : N
  /-- operations past their critical section that have yet to call `notify_one` -/
  notifying : Nat
  worker : ExpiryLoop

/-- One step of some task or of the worker. -/
inductive ExpiryEvent where
  /-- a task runs an operation's critical section -/
  | operate (op : RegistryOp)
  /-- an operation in progress calls `notify_one` -/
  | notifyOne
  /-- the worker calls `notified()` -/
  | arm
  /-- the worker reads `next_expiry` -/
  | snapshot
  /-- the worker polls `changed` -/
  | pollChanged
  /-- the worker's `select!` takes the timer branch -/
  | fire
  /-- the worker calls `expire(Instant::now())` -/
  | expire (now : Instant)
  deriving DecidableEq, Repr

namespace ExpirySystem

variable {N : Type} (T : Notify N)

/-- The system before the worker's first turn. -/
def init : ExpirySystem N := ⟨.empty, T.new, 0, .top⟩

/-- One step; `none` when the event is not enabled. -/
def step (s : ExpirySystem N) : ExpiryEvent → Option (ExpirySystem N)
  | .operate op =>
    let (registry, notifies) := op.run s.registry
    some { s with registry, notifying := s.notifying + if notifies then 1 else 0 }
  | .notifyOne =>
    match s.notifying with
    | 0 => none
    | n + 1 => some { s with notify := T.notifyOne s.notify, notifying := n }
  | .arm =>
    match s.worker with
    | .top => some { s with worker := .armed }
    | _ => none
  | .snapshot =>
    match s.worker with
    | .armed => some { s with worker := .waiting s.registry.nextExpiry }
    | _ => none
  | .pollChanged =>
    match s.worker with
    | .waiting _ =>
      match T.poll s.notify with
      | (true, notify) => some { s with notify, worker := .top }
      | (false, notify) => some { s with notify }
    | _ => none
  | .fire =>
    match s.worker with
    | .waiting (some deadline) =>
      some { s with notify := T.dropNotified s.notify, worker := .firing deadline }
    | _ => none
  | .expire now =>
    match s.worker with
    | .firing deadline =>
      if deadline ≤ now then
        some { s with registry := (s.registry.expire now).2.2, worker := .top }
      else none
    | _ => none

end ExpirySystem

/-- The registry, the worker and any other tasks, under every interleaving. -/
def expirySystem {N : Type} (T : Notify N) : Machine (ExpirySystem N) ExpiryEvent where
  init := ExpirySystem.init T
  step := ExpirySystem.step T

/-! ## The worker never oversleeps -/

/-- Nothing in the registry is due before `deadline`; without a deadline, nothing is
in the registry at all. -/
def PendingLaneRegistry.NotBefore (reg : PendingLaneRegistry) : Option Instant → Prop
  | some deadline => ∀ nonce entry, reg.entries.lookup nonce = some entry →
      deadline ≤ entry.expiresAt
  | none => ∀ nonce, reg.entries.lookup nonce = none

/-- `reg'` has no entry that `reg` did not have. -/
def PendingLaneRegistry.Within (reg reg' : PendingLaneRegistry) : Prop :=
  ∀ nonce entry, reg'.entries.lookup nonce = some entry → reg.entries.lookup nonce = some entry

namespace PendingLaneRegistry

theorem NotBefore.within {reg reg' : PendingLaneRegistry} {deadline : Option Instant}
    (h : reg.NotBefore deadline) (hsub : reg.Within reg') : reg'.NotBefore deadline := by
  cases deadline with
  | some d => exact fun nonce entry hentry => h nonce entry (hsub nonce entry hentry)
  | none =>
    intro nonce
    rw [Option.eq_none_iff_forall_ne_some]
    intro entry hentry
    have := hsub nonce entry hentry
    rw [h nonce] at this
    cases this

/-- The snapshot is right when it is taken. -/
theorem notBefore_nextExpiry (reg : PendingLaneRegistry) : reg.NotBefore reg.nextExpiry := by
  rcases hnext : reg.nextExpiry with _ | deadline
  · intro nonce
    rw [Option.eq_none_iff_forall_ne_some]
    intro entry hentry
    have hempty : reg.entries.entries = [] := by
      simpa [nextExpiry, List.min?_eq_none_iff] using hnext
    have hmem := HashMap.lookup_eq_some_iff.mp hentry
    rw [hempty] at hmem
    cases hmem
  · intro nonce entry hentry
    have hmin := (List.min?_eq_some_iff.mp hnext).2
    exact hmin _ (List.mem_map_of_mem (HashMap.lookup_eq_some_iff.mp hentry))

end PendingLaneRegistry

/-- An operation that does not notify brings no entry in. -/
theorem RegistryOp.within_of_quiet {reg : PendingLaneRegistry} {op : RegistryOp}
    (h : (op.run reg).2 = false) : reg.Within (op.run reg).1 := by
  intro nonce entry hentry
  -- an operation that does not notify leaves no entry with an earlier deadline
  cases op with
  | tryAdmit peer lane =>
    simp only [run] at hentry
    split at hentry
    · rename_i hadmit
      obtain ⟨-, -, -, rfl⟩ := tryAdmit_ok hadmit
      exact hentry
    · exact hentry
  | dropPermit permit => simpa [run] using hentry
  | registerAdmitted nonce laneClass peer localAddr group permit now lane =>
    simp only [run] at h hentry
    split at hentry
    · simp_all
    · simp_all
    · rename_i hreg
      rcases registerAdmitted_cases hreg with ⟨-, -, rfl⟩ | ⟨_, _, _, _, _, _, -, -, -, -, rfl⟩ |
        ⟨_, _, -, -, -, -, rfl, -⟩ | ⟨-, rfl, -⟩
      · exact hentry
      · exact hentry
      · simp_all
      · simp_all
    · exact hentry
  | confirmReservation nonce lane =>
    simp only [run] at h hentry
    split at hentry
    · simp_all
    · rename_i hconf
      rwa [lookup_rebuilt (confirmReservation_error hconf).2] at hentry
  | pairWaitStep nonce laneClass peer expiresAt now =>
    simp only [run] at h hentry
    rcases pairWaitStep_cases reg nonce laneClass peer expiresAt now with
      ⟨_, _, -, -, -, heq⟩ | heq | ⟨_, heq⟩ | ⟨heq, -⟩
    · rw [heq] at h
      cases h
    · rwa [heq] at hentry
    · rwa [heq] at hentry
    · rwa [heq] at hentry
  | reinsertReadyLane nonce lane expiresAt =>
    simp only [run, PendingLaneRegistry.reinsertReadyLane] at h hentry
    split at hentry
    · simp_all
    · rename_i hre
      split at hre <;> simp_all
  | cancelReservation nonce peer laneClass =>
    simp only [run] at h hentry
    split at hentry
    · simp_all
    · rename_i hcancel
      rwa [cancelReservation_none hcancel] at hentry

/-- Why the worker may sleep: past its snapshot, a notification is kept for it, or an
operation in progress still owes one, or nothing is due before its deadline. -/
def SleepInv {N : Type} (T : Notify N) (s : ExpirySystem N) : Prop :=
  ∀ deadline, s.worker = .waiting deadline →
    T.Stored s.notify ∨ 0 < s.notifying ∨ s.registry.NotBefore deadline

/-- No step makes the worker oversleep. -/
theorem SleepInv.step {N : Type} {T : Notify N} {s s' : ExpirySystem N} {e : ExpiryEvent}
    (hi : SleepInv T s) (h : ExpirySystem.step T s e = some s') : SleepInv T s' := by
  -- a worker that sleeps is woken by a permit, or its deadline covers every entry
  intro deadline hw
  cases e with
  | operate op =>
    simp only [ExpirySystem.step, Option.some.injEq] at h
    subst h
    rcases hop : (op.run s.registry).2 with _ | _
    · have hsub := RegistryOp.within_of_quiet hop
      rcases hi deadline hw with hst | hn | hd
      · exact .inl hst
      · exact .inr (.inl (Nat.lt_of_lt_of_le hn (Nat.le_add_right _ _)))
      · exact .inr (.inr (hd.within hsub))
    · exact .inr (.inl (by simp))
  | notifyOne =>
    simp only [ExpirySystem.step] at h
    split at h
    · cases h
    · cases h
      exact .inl (T.stored_notifyOne _)
  | arm =>
    simp only [ExpirySystem.step] at h
    split at h <;> cases h
    cases hw
  | snapshot =>
    simp only [ExpirySystem.step] at h
    split at h <;> cases h
    cases hw
    exact .inr (.inr (notBefore_nextExpiry _))
  | pollChanged =>
    simp only [ExpirySystem.step] at h
    split at h
    · split at h
      · cases h
        cases hw
      · rename_i hpoll
        cases h
        rcases hi deadline hw with hst | hn | hd
        · have := T.ready_of_stored _ hst
          rw [hpoll] at this
          cases this
        · exact .inr (.inl hn)
        · exact .inr (.inr hd)
    · cases h
  | fire =>
    simp only [ExpirySystem.step] at h
    split at h <;> cases h
    cases hw
  | expire now =>
    simp only [ExpirySystem.step] at h
    split at h
    · split at h <;> cases h
      cases hw
    · cases h

/-- **The expiry worker never oversleeps and reaps exactly.** In every reachable state
in which the worker waits with a deadline, a notification is kept or about to be sent,
or every entry is due at that deadline or later; waiting without a deadline, the
registry is empty instead. And `expire(now)` takes out and returns exactly the entries
with `expires_at <= now`, each once, whatever the registry and the instant. -/
theorem expiry_worker_never_oversleeps {N : Type} (T : Notify N) :
    (∀ s, (expirySystem T).Reaches s → ∀ deadline, s.worker = .waiting deadline →
      T.Stored s.notify ∨ 0 < s.notifying ∨ s.registry.NotBefore deadline) ∧
    (∀ (reg : PendingLaneRegistry) (now : Instant),
      ExpireExact reg now (reg.expire now).1 (reg.expire now).2.2) := by
  refine ⟨fun s hs => ?_, expire_exact⟩
  have hinit : SleepInv T (ExpirySystem.init T) := by
    intro deadline hw
    cases hw
  exact hs.invariant (I := SleepInv T) hinit fun _ _ _ hi h => hi.step h

/-- `tokio::sync::Notify` with one waiting task: a permit, and for a registered
`Notified` whether it has been notified. -/
structure TokioNotify where
  permit : Bool
  waiter : Option Bool
  deriving DecidableEq, Repr

/-- How `tokio`'s `Notify` behaves towards one waiting task. -/
def tokioNotify : Notify TokioNotify where
  new := ⟨false, none⟩
  notifyOne n := if n.waiter = some false then { n with waiter := some true }
    else { n with permit := true }
  poll n :=
    if n.waiter = some true then (true, { n with waiter := none })
    else if n.permit then (true, ⟨false, none⟩)
    else (false, { n with waiter := some false })
  dropNotified n := if n.waiter = some true then ⟨true, none⟩ else { n with waiter := none }
  Stored n := n.permit = true ∨ n.waiter = some true
  stored_notifyOne n := by
    split
    · exact .inr rfl
    · exact .inl rfl
  ready_of_stored n h := by
    rcases h with h | h
    · simp only [h]
      split <;> rfl
    · simp [h]

/-- A lane reserves while the worker waits for an empty registry: the deadline is in
the registry before the worker knows of it, and the notification is on its way. -/
theorem reservation_wakes_the_worker :
    ∃ s, (expirySystem tokioNotify).Reaches s ∧ s.worker = .waiting none ∧
      s.registry.nextExpiry = some 10000000005 ∧
      (tokioNotify.Stored s.notify ∨ 0 < s.notifying ∨ s.registry.NotBefore none) ∧
      ExpireExact s.registry 10000000005 (s.registry.expire 10000000005).1
        (s.registry.expire 10000000005).2.2 := by
  have hrun : ∃ s, (expirySystem tokioNotify).Reaches s ∧ s.worker = .waiting none ∧
      s.registry.nextExpiry = some 10000000005 :=
    ⟨_, ⟨[.arm, .snapshot, .pollChanged,
      .operate (.registerAdmitted ⟨7⟩ .bulk (.v4 1 2) (.v4 3 4) ⟨0⟩ ⟨.v4 1, 0⟩ 5 0)],
      Machine.run_of_exec rfl⟩, rfl, rfl⟩
  obtain ⟨s, hs, hw, hnext⟩ := hrun
  obtain ⟨hsleep, hexact⟩ := expiry_worker_never_oversleeps tokioNotify
  exact ⟨s, hs, hw, hnext, hsleep s hs none hw, hexact s.registry 10000000005⟩

end RtpMux

import RtpMux.GroupSafety

/-!
# The list of rebind handles stays short (`group.rs`)

A group keeps a handle for every stream that registered, and drops the dead ones when a session
joins and when the list has grown to a watermark, which is then set to twice what is left, and to at
least 64. Handles die at any time, so what is left is bounded by how many were ever alive at once:
the history of the groups keeps the registrations of each pair and that number (`WriterHistory`).

`PurgeInv` ties the list to the history: without the dead, the list is the registrations without the
dead, in order.
-/

namespace RtpMux

open SessionGroups

/-! ## The history -/

/-- The registrations with each pair, the oldest first, and the most that were alive at once in the
states so far. -/
structure WriterHistory where
  registered : PairId → List WriterId
  peak : PairId → Nat

/-- The writer that the call which holds the lock of a pair is about to put on the list. -/
def SessionPair.registers (p : SessionPair) : List WriterId :=
  match p.lock with
  | some (.registering _ writer _) => [writer]
  | _ => []

namespace WriterHistory

/-- The handles that registered with a pair and are alive. -/
def alive (past : WriterHistory) (s : SessionGroups) (pair : PairId) : List WriterId :=
  (past.registered pair).filter s.writerAlive

/-- The most handles of a pair that were alive at once, now or before. -/
def largest (past : WriterHistory) (s : SessionGroups) (pair : PairId) : Nat :=
  max (past.peak pair) (past.alive s pair).length

/-- No handle has registered. -/
def start : WriterHistory := ⟨fun _ => [], fun _ => 0⟩

/-- What event `e`, taken in `s`, adds to the history. -/
def record (s : SessionGroups) (e : GroupEvent) (past : WriterHistory) : WriterHistory where
  registered pair :=
    match e with
    | .advance id =>
      if id = pair then past.registered pair ++
        (s.pairs.lookup pair).toList.flatMap SessionPair.registers
      else past.registered pair
    | _ => past.registered pair
  peak := past.largest s

end WriterHistory

/-! ## What one step does to a list -/

/-- The handles of a pair and its watermark. -/
def SessionGroups.writerList (s : SessionGroups) (pair : PairId) : Option (List WriterId × Nat) :=
  (s.pairs.lookup pair).map fun p => (p.state.writers, p.state.nextPurge)

/-- The purge of `register_writer` on a list and its watermark. -/
def SessionGroups.purgeList (s : SessionGroups) (writers : List WriterId) (nextPurge : Nat) :
    List WriterId × Nat :=
  let alive := writers.filter s.writerAlive
  if nextPurge ≤ writers.length then (alive, max (alive.length * 2) 64) else (writers, nextPurge)

/-- The effect of one step on the list of one pair and on its registrations. -/
inductive HandlesStep (s s' : SessionGroups) (pair : PairId)
    (registered registered' : List WriterId) : Prop where
  | rests (same : s'.writerList pair = s.writerList pair) (dead : s.deadWriters ⊆ s'.deadWriters)
      (unregistered : registered' = registered)
  | created (fresh : s.writerList pair = none) (empty : s'.writerList pair = some ([], 64))
      (unregistered : registered' = registered)
  | joined (writers : List WriterId) (nextPurge : Nat)
    (before : s.writerList pair = some (writers, nextPurge))
      (after : s'.writerList pair = some (writers.filter s.writerAlive, nextPurge))
      (dead : s'.deadWriters = s.deadWriters) (unregistered : registered' = registered)
  | registers (writers : List WriterId) (nextPurge : Nat) (writer : WriterId)
      (before : s.writerList pair = some (writers, nextPurge))
      (after : s'.writerList pair =
        some ((s.purgeList writers nextPurge).1 ++ [writer], (s.purgeList writers nextPurge).2))
      (dead : s'.deadWriters = s.deadWriters) (listed : registered' = registered ++ [writer])

/-- One pair gets the state that a step makes of it. -/
theorem writerList_insert {s s' : SessionGroups} {pair : PairId} {p : SessionPair}
    (h : s'.pairs = s.pairs.insert pair p) (id : PairId) :
    s'.writerList id = if id = pair then some (p.state.writers, p.state.nextPurge)
      else s.writerList id := by
  rw [writerList, writerList, h, HashMap.lookup_insert_eq]
  split <;> rfl

/-- A pair changes, but for its list and its watermark. -/
theorem writerList_relock {s s' : SessionGroups} {pair : PairId} {p p' : SessionPair}
    (hp : s.pairs.lookup pair = some p) (h : s'.pairs = s.pairs.insert pair p')
    (hwriters : p'.state.writers = p.state.writers) (hnext : p'.state.nextPurge = p.state.nextPurge)
    (id : PairId) :
    s'.writerList id = s.writerList id := by
  rw [writerList_insert h]
  split
  · rename_i hid
    rw [hid, writerList, hp, hwriters, hnext]
    rfl
  · rfl

/-- A purge works on the list of writers and its next mark. -/
theorem purge_eq (s : SessionGroups) (state : PairState) :
    ((s.purge state).writers, (s.purge state).nextPurge) =
      s.purgeList state.writers state.nextPurge := by
  simp only [SessionGroups.purge, purgeList]
  split <;> rfl

/-- **Inversion.** -/
theorem HandlesStep.of_step {s s' : SessionGroups} {e : GroupEvent} (hI : GroupInv s)
    (past : WriterHistory)
    (h : s.step e = some s') (id : PairId) :
    HandlesStep s s' id (past.registered id) ((past.record s e).registered id) := by
  cases e with
  | lookup join token opener =>
    simp only [SessionGroups.step, SessionGroups.lookup] at h
    split at h
    · cases h
    split at h
    · cases h
      exact .rests rfl (List.Subset.refl _) rfl
    split at h
    · have hpairs : s'.pairs = s.pairs.insert s.nextPair ⟨s.nextRouter, newPairState, none, token,
          []⟩ := by
        rw [← Option.some.inj h]
        rfl
      have hdead : s'.deadWriters = s.deadWriters := by
        rw [← Option.some.inj h]
        rfl
      have hlist := writerList_insert hpairs id
      by_cases hid : id = s.nextPair
      · -- the new pair takes a number that no pair has
        rw [if_pos hid] at hlist
        refine .created ?_ hlist rfl
        rw [writerList, Option.map_eq_none_iff, Option.eq_none_iff_forall_ne_some]
        intro p hp
        exact absurd (hI.created _ p hp).1 (by rw [hid]; exact Nat.lt_irrefl _)
      · rw [if_neg hid] at hlist
        exact .rests hlist (by rw [hdead]; exact List.Subset.refl _) rfl
    · cases h
      exact .rests rfl (List.Subset.refl _) rfl
  | commit join =>
    simp only [SessionGroups.step, SessionGroups.commit] at h
    split at h
    · rename_i pair opener hj
      split at h
      · rename_i p hlock
        obtain ⟨hp, -⟩ := lockState_eq_some.mp hlock
        split at h
        · cases h
          exact .rests rfl (List.Subset.refl _) rfl
        · cases h
          by_cases hid : id = pair
          · subst hid
            refine .joined p.state.writers p.state.nextPurge (by rw [writerList, hp]; rfl)
              ?_ rfl rfl
            exact (writerList_insert rfl id).trans (if_pos rfl)
          · exact .rests ((writerList_insert rfl id).trans (if_neg hid)) (List.Subset.refl _) rfl
      · cases h
    · cases h
  | registerWriter member writer =>
    simp only [SessionGroups.step, SessionGroups.registerWriter] at h
    split at h
    · rename_i pair seq hj
      split at h
      · rename_i p hlock
        obtain ⟨hp, -⟩ := lockState_eq_some.mp hlock
        cases h
        exact .rests (writerList_relock hp rfl (by rfl) (by rfl) id) (List.Subset.refl _) rfl
      · cases h
    · cases h
  | advance pair =>
    simp only [SessionGroups.step, SessionGroups.advance] at h
    split at h
    · rename_i p hp
      -- only a registration changes a list, and only its own pair's
      have hquiet : ∀ {lock}, p.lock = lock → p.registers = [] →
          (past.record s (.advance pair)).registered id = past.registered id := by
        intro lock _ hnone
        simp only [WriterHistory.record]
        split
        · rename_i hid
          rw [← hid, hp]
          simp [hnone]
        · rfl
      split at h
      · rename_i hlock
        cases h
        exact .rests (writerList_relock hp rfl (by rfl) (by rfl) id) (List.Subset.refl _)
          (hquiet hlock (by rw [SessionPair.registers, hlock]))
      · rename_i hlock
        cases h
        exact .rests (writerList_relock hp rfl (by rfl) (by rfl) id) (List.Subset.refl _)
          (hquiet hlock (by rw [SessionPair.registers, hlock]))
      · rename_i seq writer target hlock
        cases h
        simp only [WriterHistory.record]
        by_cases hid : id = pair
        · subst hid
          rw [if_pos rfl, hp]
          refine .registers p.state.writers p.state.nextPurge writer
            (by rw [writerList, hp]; rfl) ?_ rfl ?_
          · rw [← purge_eq]
            exact (writerList_insert rfl id).trans (if_pos rfl)
          · simp [SessionPair.registers, hlock]
        · rw [if_neg fun heq => hid heq.symm]
          exact .rests ((writerList_insert rfl id).trans (if_neg hid)) (List.Subset.refl _) rfl
      · cases h
    · cases h
  | dropMember member =>
    simp only [SessionGroups.step, SessionGroups.dropMember] at h
    split at h
    · rename_i pair seq hj
      split at h
      · rename_i p hlock
        obtain ⟨hp, -⟩ := lockState_eq_some.mp hlock
        cases h
        exact .rests (writerList_relock hp rfl (by rfl) (by rfl) id) (List.Subset.refl _) rfl
      · cases h
    · cases h
  | release holder =>
    simp only [SessionGroups.step, SessionGroups.release] at h
    split at h
    · cases h
      exact .rests rfl (List.Subset.refl _) rfl
    · cases h
      exact .rests rfl (List.Subset.refl _) rfl
    · cases h
  | receiveDriver =>
    cases h
    exact .rests rfl (List.Subset.refl _) rfl
  | closeScope =>
    cases h
    exact .rests rfl (List.Subset.refl _) rfl
  | openerDies opener =>
    cases h
    exact .rests rfl (List.Subset.refl _) rfl
  | writerDies writer =>
    cases h
    exact .rests rfl (List.subset_cons_self _ _) rfl

/-! ## The invariant -/

/-- A list and its watermark, with the registrations so far and the most that were alive at once. -/
structure Watched (alive : WriterId → Bool) (registered : List WriterId) (largest : Nat)
    (writers : List WriterId)
    (nextPurge : Nat) : Prop where
  /-- no live handle is missing, and none is there that did not register -/
  kept : writers.filter alive = registered.filter alive
  /-- the list ends at its watermark -/
  below : writers.length ≤ nextPurge
  floor : 64 ≤ nextPurge
  ceiling : nextPurge ≤ max 64 (2 * largest)

/-- The invariant of one pair. -/
structure PurgeInv (s : SessionGroups) (pair : PairId) (registered : List WriterId)
    (largest : Nat) : Prop where
  /-- who has registered is with a pair that exists -/
  known : s.writerList pair = none → registered = []
  watched : ∀ writers nextPurge, s.writerList pair = some (writers, nextPurge) →
    Watched s.writerAlive registered largest writers nextPurge

/-- The invariant from the list that a pair has. -/
theorem PurgeInv.of_some {s : SessionGroups} {pair : PairId} {registered writers : List WriterId}
    {largest nextPurge : Nat} (hlist : s.writerList pair = some (writers, nextPurge))
    (h : Watched s.writerAlive registered largest writers nextPurge) :
    PurgeInv s pair registered largest where
  known hnone := by
    rw [hlist] at hnone
    cases hnone
  watched writers' nextPurge' hlist' := by
    rw [hlist] at hlist'
    cases hlist'
    exact h

section

variable {alive : WriterId → Bool} {registered writers : List WriterId} {largest nextPurge : Nat}

/-- More may have been alive, and more may die. -/
theorem Watched.mono (h : Watched alive registered largest writers nextPurge)
    {alive' : WriterId → Bool} {largest' : Nat}
    (halive : ∀ writer, alive' writer = true → alive writer = true)
    (hlargest : largest ≤ largest') :
    Watched alive' registered largest' writers nextPurge where
  kept := by
    have hfilter (l : List WriterId) : (l.filter alive).filter alive' = l.filter alive' := by
      rw [List.filter_filter]
      refine List.filter_congr fun writer _ => ?_
      cases hdead : alive' writer with
      | false => rfl
      | true => rw [halive writer hdead, Bool.and_self]
    rw [← hfilter writers, h.kept, hfilter]
  below := h.below
  floor := h.floor
  ceiling := by
    have hceiling := h.ceiling
    omega

/-- A join drops the dead. -/
theorem Watched.join (h : Watched alive registered largest writers nextPurge) :
    Watched alive registered largest (writers.filter alive) nextPurge where
  kept := by rw [List.filter_filter, ← h.kept]; simp
  below := (List.length_filter_le _ _).trans h.below
  floor := h.floor
  ceiling := h.ceiling

end

/-- A purge that was due, and one that was not, leave room for one more. -/
theorem Watched.register {s : SessionGroups} {registered writers : List WriterId}
    {largest nextPurge : Nat}
    (h : Watched s.writerAlive registered largest writers nextPurge)
    (halive : (registered.filter s.writerAlive).length ≤ largest) (writer : WriterId) :
    Watched s.writerAlive (registered ++ [writer]) largest
      ((s.purgeList writers nextPurge).1 ++ [writer])
      (s.purgeList writers nextPurge).2 := by
  rw [← h.kept] at halive
  have hbelow := h.below
  have hfloor := h.floor
  have hceiling := h.ceiling
  unfold purgeList
  dsimp only
  split
  · refine ⟨?_, ?_, ?_, ?_⟩
    · rw [List.filter_append, List.filter_append, ← h.kept, List.filter_filter]
      simp
    · rw [List.length_append, List.length_singleton]
      dsimp only
      omega
    · exact le_max_right _ _
    · omega
  · refine ⟨?_, ?_, hfloor, hceiling⟩
    · rw [List.filter_append, List.filter_append, h.kept]
    · rw [List.length_append, List.length_singleton]
      dsimp only
      omega

/-- **One step.** -/
theorem PurgeInv.step {s s' : SessionGroups} {pair : PairId}
    {registered registered' : List WriterId}
    {largest largest' : Nat} (hi : PurgeInv s pair registered largest)
    (h : HandlesStep s s' pair registered registered')
    (halive : (registered.filter s.writerAlive).length ≤ largest)
    (hlargest : largest ≤ largest') : PurgeInv s' pair registered' largest' := by
  cases h with
  | rests same dead unregistered =>
    subst unregistered
    refine ⟨fun hnone => hi.known (same ▸ hnone), fun writers nextPurge hlist => ?_⟩
    refine (hi.watched writers nextPurge (same ▸ hlist)).mono (fun writer hw => ?_) hlargest
    simp only [SessionGroups.writerAlive, decide_eq_true_eq] at hw ⊢
    exact fun hmem => hw (dead hmem)
  | created fresh empty unregistered =>
    rw [unregistered, hi.known fresh]
    exact .of_some empty ⟨rfl, by simp, le_rfl, le_max_left _ _⟩
  | joined writers nextPurge before after dead unregistered =>
    have hsame : s'.writerAlive = s.writerAlive := by
      funext writer
      rw [SessionGroups.writerAlive, SessionGroups.writerAlive, dead]
    rw [unregistered]
    refine .of_some after ?_
    rw [hsame]
    exact (hi.watched writers nextPurge before).join.mono (fun _ hw => hw) hlargest
  | registers writers nextPurge writer before after dead listed =>
    have hsame : s'.writerAlive = s.writerAlive := by
      funext writer
      rw [SessionGroups.writerAlive, SessionGroups.writerAlive, dead]
    rw [listed]
    refine .of_some after ?_
    rw [hsame]
    exact ((hi.watched writers nextPurge before).register halive writer).mono
      (fun _ hw => hw) hlargest

/-- The groups with the registrations and the peak of each pair. -/
def sessionGroupsWithWriters (bound : Nat) : Machine (SessionGroups × WriterHistory) GroupEvent :=
  (sessionGroups bound).withHistory .start WriterHistory.record

/-- **Run lemma.** -/
theorem purgeInv_of_reaches {bound : Nat} {s : SessionGroups} {past : WriterHistory}
    (h : (sessionGroupsWithWriters bound).Reaches (s, past)) (pair : PairId) :
    PurgeInv s pair (past.registered pair) (past.largest s pair) := by
  have hall := Machine.Reaches.invariant_withHistory
    (J := fun s past => ∀ pair, PurgeInv s pair (past.registered pair) (past.largest s pair))
    (fun _ hs => groupInv_of_reaches hs) (fun pair => ⟨fun _ => rfl, nofun⟩)
    (fun s past e s' hI hJ hst pair =>
      (hJ pair).step (.of_step hI past hst pair) (le_max_right _ _) (le_max_left _ _)) h
  exact hall pair

/-- **The rebind handles of a group.** In every state that the groups reach, under any order of
joins, registrations and deaths, the list of a pair ends at its watermark, which is at least 64 and
at most twice the most handles that were ever alive at once; and every live handle that registered
is still in it. -/
theorem rebind_handles_bounded (bound : Nat) (s : SessionGroups) (past : WriterHistory)
    (h : (sessionGroupsWithWriters bound).Reaches (s, past)) (pair : PairId) (p : SessionPair)
    (hp : s.pairs.lookup pair = some p) :
    p.state.writers.length ≤ p.state.nextPurge ∧ 64 ≤ p.state.nextPurge ∧
      p.state.nextPurge ≤ max 64 (2 * past.largest s pair) ∧
      p.state.writers.length ≤ max 64 (2 * past.largest s pair) ∧
      p.state.writers.filter s.writerAlive = past.alive s pair := by
  have hinv := purgeInv_of_reaches h pair
  have hlist : s.writerList pair = some (p.state.writers, p.state.nextPurge) := by
    rw [writerList, hp]
    rfl
  have hwatched := hinv.watched _ _ hlist
  exact ⟨hwatched.below, hwatched.floor, hwatched.ceiling, hwatched.below.trans hwatched.ceiling,
    hwatched.kept⟩

/-- Sixty-four streams register, all but the last of them end, and one more registers. -/
def finishedStreamsRun : List GroupEvent :=
  [GroupEvent.lookup 0 ⟨1⟩ 10, .commit 0, .advance 0] ++
    (List.range 64).flatMap (fun writer => [GroupEvent.registerWriter 0 writer, .advance 0]) ++
    (List.range 63).map GroupEvent.writerDies ++ [GroupEvent.registerWriter 0 64, .advance 0]

/-- The registration that finds the list at its watermark drops the sixty-three dead handles. -/
theorem finished_streams_leave_at_the_purge :
    ∃ s past p, (sessionGroupsWithWriters 8).Reaches (s, past) ∧ s.pairs.lookup 0 = some p ∧
      p.state.writers = [63, 64] ∧ past.largest s 0 = 64 ∧ past.alive s 0 = [63, 64] ∧
      p.state.writers.length ≤ max 64 (2 * past.largest s 0) := by
  have hrun : ∃ x ∈ (sessionGroupsWithWriters 8).exec (fun _ _ => True)
      (sessionGroupsWithWriters 8).init finishedStreamsRun, ∃ p ∈ x.1.pairs.lookup 0,
      p.state.writers = [63, 64] ∧ x.2.largest x.1 0 = 64 ∧ x.2.alive x.1 0 = [63, 64] := by
    decide +kernel
  obtain ⟨⟨s, past⟩, hexec, p, hp, hwriters, hlargest, halive⟩ := hrun
  have hs : (sessionGroupsWithWriters 8).Reaches (s, past) := ⟨_, Machine.run_of_exec hexec⟩
  obtain ⟨-, -, -, hlength, -⟩ := rebind_handles_bounded 8 s past hs 0 p hp
  exact ⟨s, past, p, hs, hp, hwriters, hlargest, halive, hlength⟩

end RtpMux

import RtpMux.Group
import Mathlib.Data.List.Pairwise

/-!
# Safety of the session-group registry

However joins, refusals and drops interleave, the registry keeps one live pair per token.
`join` looks the pair up under one lock and takes its seat under another; what makes this
safe is that the call holds an `Arc` in between, so the pair it found cannot die and be
created anew. `GroupInv.mapped` says it: whoever holds a pair, the registry still maps the
pair's token to it.

The other clauses are the accounts of a pair: its `members` counter counts the live
`PairMember`s, sequence numbers only grow, and pairs and routers are created one for one.
-/

namespace RtpMux

open SessionGroups

/-- The handle is a live `PairMember`. -/
def PairHandle.isMember (h : PairHandle) : Bool :=
  match h.phase with
  | .member _ => true
  | _ => false

/-- How much a handle counts for a pair. -/
def PairHandle.seats (h : PairHandle) (pair : PairId) : Nat :=
  if h.pair = pair ∧ h.isMember = true then 1 else 0

/-- The number of live `PairMember`s of a pair. -/
def SessionGroups.memberCount (s : SessionGroups) (pair : PairId) : Nat :=
  s.handles.total fun h => h.seats pair

/-- A `SessionPair` is alive: somebody holds its `Arc`. -/
def SessionGroups.Alive (s : SessionGroups) (pair : PairId) : Prop := 0 < s.strongCount pair

/-- The invariant of the registry. -/
structure GroupInv (s : SessionGroups) : Prop where
  /-- the registry maps the token of a pair that is held to that pair -/
  mapped : ∀ j h, s.handles.lookup j = some h →
    ∃ p, s.pairs.lookup h.pair = some p ∧ s.groups.lookup p.token = some h.pair
  /-- the registry maps a token to a pair of that token -/
  keyed : ∀ token pair, s.groups.lookup token = some pair →
    ∃ p, s.pairs.lookup pair = some p ∧ p.token = token
  counted : ∀ pair p, s.pairs.lookup pair = some p → p.state.members = s.memberCount pair
  bounded : ∀ pair p, s.pairs.lookup pair = some p → p.state.members ≤ 2
  /-- sequence numbers are handed out in increasing order, and the newest is the largest -/
  handed : ∀ pair p, s.pairs.lookup pair = some p →
    p.handed.Pairwise (· > ·) ∧ p.state.newestSeq = p.state.nextSeq ∧
      p.handed.head?.getD 0 = p.state.newestSeq
  seat : ∀ j pair seq p, s.handles.lookup j = some ⟨pair, .member seq⟩ →
    s.pairs.lookup pair = some p → seq ∈ p.handed
  /-- pairs and routers are created together -/
  created : ∀ pair p, s.pairs.lookup pair = some p → pair < s.nextPair ∧ p.feed = pair
  known : ∀ pair, pair < s.nextPair → s.pairs.lookup pair ≠ none
  routers : s.nextRouter = s.nextPair ∧ s.submitted = (List.range s.nextPair).reverse

/-- The registry starts empty. -/
theorem groupInv_init (bound : Nat) : GroupInv (SessionGroups.init bound) where
  mapped := by simp [SessionGroups.init]
  keyed := by simp [SessionGroups.init]
  counted := by simp [SessionGroups.init]
  bounded := by simp [SessionGroups.init]
  handed := by simp [SessionGroups.init]
  seat := by simp [SessionGroups.init]
  created := by simp [SessionGroups.init]
  known := by simp [SessionGroups.init]
  routers := ⟨rfl, rfl⟩

/-- Holding a pair keeps it alive. -/
theorem SessionGroups.alive_of_handle {s : SessionGroups} {j : JoinId} {h : PairHandle}
    (hj : s.handles.lookup j = some h) : s.Alive h.pair := by
  have hle := HashMap.le_total (f := fun h' : PairHandle => if h'.pair = h.pair then 1 else 0) hj
  simp only [if_true] at hle
  exact hle

/-! ## The first critical section of `join` -/

/-- Forgetting dead groups. -/
theorem GroupInv.retain {s : SessionGroups} (h : GroupInv s) :
    GroupInv { s with
      groups := HashMap.retain (fun _ pair => 0 < s.strongCount pair) s.groups } where
  mapped := by
    intro j hd hj
    obtain ⟨p, hp, hgroup⟩ := h.mapped j hd hj
    refine ⟨p, hp, ?_⟩
    have halive : 0 < s.strongCount hd.pair := alive_of_handle hj
    rw [HashMap.lookup_retain, hgroup, Option.filter_some]
    simp [halive]
  keyed := by
    intro token pair hgroup
    rw [HashMap.lookup_retain, Option.filter_eq_some_iff] at hgroup
    exact h.keyed token pair hgroup.1
  counted := h.counted
  bounded := h.bounded
  handed := h.handed
  seat := h.seat
  created := h.created
  known := h.known
  routers := h.routers

/-- A handle that is not a member is added: nothing is counted. -/
theorem memberCount_insert {s : SessionGroups} {j : JoinId} {hd : PairHandle}
    (hfree : s.handles.lookup j = none) (hmember : hd.isMember = false) (pair : PairId) :
    HashMap.total (fun h : PairHandle => h.seats pair) (s.handles.insert j hd) =
      s.memberCount pair := by
  rw [HashMap.total_insert_new _ hfree]
  simp [PairHandle.seats, hmember, SessionGroups.memberCount]

/-- `join` finds the group. -/
theorem GroupInv.found {s : SessionGroups} (h : GroupInv s) {j : JoinId} {token : GroupToken}
    {pair : PairId} (opener : OpenerId) (hfree : s.handles.lookup j = none)
    (hgroup : s.groups.lookup token = some pair) :
    GroupInv { s with handles := s.handles.insert j ⟨pair, .joining opener⟩ } where
  mapped := by
    intro j' hd hj
    simp only [HashMap.lookup_insert_eq] at hj
    split at hj
    · obtain rfl := Option.some.inj hj
      obtain ⟨p, hp, rfl⟩ := h.keyed token pair hgroup
      exact ⟨p, hp, hgroup⟩
    · exact h.mapped j' hd hj
  keyed := h.keyed
  counted := by
    intro pair' p hp
    rw [h.counted pair' p hp]
    exact (memberCount_insert hfree rfl pair').symm
  bounded := h.bounded
  handed := h.handed
  seat := by
    intro j' pair' seq p hj hp
    simp only [HashMap.lookup_insert_eq] at hj
    split at hj
    · cases hj
    · exact h.seat j' pair' seq p hj hp
  created := h.created
  known := h.known
  routers := h.routers

/-- Nobody is a member of a pair that does not exist yet. -/
theorem GroupInv.memberCount_new {s : SessionGroups} (h : GroupInv s) :
    s.memberCount s.nextPair = 0 := by
  have hzero : ∀ e ∈ s.handles.entries, e.2.seats s.nextPair = 0 := by
    rintro ⟨j, hd⟩ he
    obtain ⟨p, hp, -⟩ := h.mapped j hd (HashMap.lookup_eq_some_iff.mpr he)
    have hne : hd.pair ≠ s.nextPair := Nat.ne_of_lt (h.created hd.pair p hp).1
    simp [PairHandle.seats, hne]
  unfold SessionGroups.memberCount HashMap.total
  rw [List.sum_eq_zero]
  intro n hn
  obtain ⟨e, he, rfl⟩ := List.mem_map.mp hn
  exact hzero e he

/-- `join` creates the group. -/
theorem GroupInv.createPair {s : SessionGroups} (h : GroupInv s) {j : JoinId}
    {token : GroupToken} (opener : OpenerId) (hfree : s.handles.lookup j = none)
    (hgroup : s.groups.lookup token = none) : GroupInv (s.createPair j token opener) := by
  -- an existing pair is not the new one
  have hold : ∀ {pair p}, s.pairs.lookup pair = some p → pair ≠ s.nextPair :=
    fun hp => Nat.ne_of_lt (h.created _ _ hp).1
  obtain ⟨hrouters, hsubmitted⟩ := h.routers
  constructor
  case mapped =>
    intro j' hd hj
    simp only [SessionGroups.createPair, HashMap.lookup_insert_eq] at hj ⊢
    split at hj
    · obtain rfl := Option.some.inj hj
      exact ⟨⟨s.nextRouter, newPairState, none, token, []⟩, by simp, by simp⟩
    · obtain ⟨p, hp, hg⟩ := h.mapped j' hd hj
      have htoken : p.token ≠ token := by
        rintro rfl
        rw [hgroup] at hg
        cases hg
      exact ⟨p, by rw [if_neg (hold hp), hp], by rw [if_neg htoken, hg]⟩
  case keyed =>
    intro token' pair hg
    simp only [SessionGroups.createPair, HashMap.lookup_insert_eq] at hg ⊢
    split at hg
    · rename_i htoken
      obtain rfl := Option.some.inj hg
      exact ⟨_, if_pos rfl, htoken.symm⟩
    · obtain ⟨p, hp, htoken⟩ := h.keyed token' pair hg
      exact ⟨p, by rw [if_neg (hold hp), hp], htoken⟩
  case counted =>
    intro pair p hp
    have hcount : (s.createPair j token opener).memberCount pair = s.memberCount pair :=
      memberCount_insert hfree rfl pair
    rw [hcount]
    simp only [SessionGroups.createPair, HashMap.lookup_insert_eq] at hp
    split at hp
    · rename_i hpair
      obtain rfl := Option.some.inj hp
      rw [hpair, h.memberCount_new]
      rfl
    · exact h.counted pair p hp
  case bounded =>
    intro pair p hp
    simp only [SessionGroups.createPair, HashMap.lookup_insert_eq] at hp
    split at hp
    · obtain rfl := Option.some.inj hp
      exact Nat.zero_le 2
    · exact h.bounded pair p hp
  case handed =>
    intro pair p hp
    simp only [SessionGroups.createPair, HashMap.lookup_insert_eq] at hp
    split at hp
    · obtain rfl := Option.some.inj hp
      exact ⟨List.Pairwise.nil, rfl, rfl⟩
    · exact h.handed pair p hp
  case seat =>
    intro j' pair seq p hj hp
    simp only [SessionGroups.createPair, HashMap.lookup_insert_eq] at hj hp
    split at hj
    · cases hj
    · obtain ⟨p', hp', -⟩ := h.mapped j' _ hj
      rw [if_neg (hold hp')] at hp
      exact h.seat j' pair seq p hj hp
  case created =>
    intro pair p hp
    simp only [SessionGroups.createPair, HashMap.lookup_insert_eq] at hp ⊢
    split at hp
    · rename_i hpair
      obtain rfl := Option.some.inj hp
      exact ⟨hpair ▸ Nat.lt_succ_self _, hpair ▸ hrouters⟩
    · obtain ⟨hlt, hfeed⟩ := h.created pair p hp
      exact ⟨Nat.lt_succ_of_lt hlt, hfeed⟩
  case known =>
    intro pair hlt
    simp only [SessionGroups.createPair, HashMap.lookup_insert_eq] at hlt ⊢
    split
    · exact Option.some_ne_none _
    · rename_i hne
      exact h.known pair (Nat.lt_of_le_of_ne (Nat.lt_succ_iff.mp hlt) hne)
  case routers =>
    refine ⟨?_, ?_⟩
    · simp [SessionGroups.createPair, hrouters]
    · simp [SessionGroups.createPair, hsubmitted, hrouters, List.range_succ]

/-! ## Steps that change one pair or one handle -/

/-- A pair and one of its handles change: the account of the pair follows. Either of them
may also stay as it was. -/
theorem GroupInv.update {s s' : SessionGroups} (h : GroupInv s) {j : JoinId} {pair : PairId}
    {phase : HandlePhase} {p : SessionPair} (phase' : HandlePhase) (p' : SessionPair)
    (hj : s.handles.lookup j = some ⟨pair, phase⟩) (hp : s.pairs.lookup pair = some p)
    (hgroups : s'.groups = s.groups)
    (hpairs : ∀ id, s'.pairs.lookup id = if id = pair then some p' else s.pairs.lookup id)
    (hhandles : ∀ i, s'.handles.lookup i =
      if i = j then some ⟨pair, phase'⟩ else s.handles.lookup i)
    (hseats : ∀ id, PairHandle.seats ⟨pair, phase⟩ id + s'.memberCount id =
      PairHandle.seats ⟨pair, phase'⟩ id + s.memberCount id)
    (hcreated : s'.nextPair = s.nextPair ∧ s'.nextRouter = s.nextRouter ∧
      s'.submitted = s.submitted)
    (hsame : p'.token = p.token ∧ p'.feed = p.feed)
    (hcount : PairHandle.seats ⟨pair, phase⟩ pair + p'.state.members =
      PairHandle.seats ⟨pair, phase'⟩ pair + p.state.members)
    (hbound : p'.state.members ≤ 2)
    (hhanded : p'.handed.Pairwise (· > ·) ∧ p'.state.newestSeq = p'.state.nextSeq ∧
      p'.handed.head?.getD 0 = p'.state.newestSeq)
    (hmono : ∀ n ∈ p.handed, n ∈ p'.handed)
    (hseat : ∀ seq, phase' = .member seq → seq ∈ p'.handed) : GroupInv s' := by
  obtain ⟨hnext, hrouter, hsubmitted⟩ := hcreated
  -- a pair of the old registry is found again, perhaps changed
  have hfind : ∀ {id q}, s.pairs.lookup id = some q →
      ∃ q', s'.pairs.lookup id = some q' ∧ q'.token = q.token := by
    intro id q hq
    rw [hpairs]
    split
    · rename_i hid
      rw [hid, hp] at hq
      obtain rfl := Option.some.inj hq
      exact ⟨p', rfl, hsame.1⟩
    · exact ⟨q, hq, rfl⟩
  constructor
  case mapped =>
    intro i hd hi
    have hheld : ∃ q, s.pairs.lookup hd.pair = some q ∧ s.groups.lookup q.token = some hd.pair := by
      rw [hhandles] at hi
      split at hi
      · obtain rfl := Option.some.inj hi
        exact h.mapped j ⟨pair, phase⟩ hj
      · exact h.mapped i hd hi
    obtain ⟨q, hq, hg⟩ := hheld
    obtain ⟨q', hq', htoken⟩ := hfind hq
    exact ⟨q', hq', by rw [hgroups, htoken, hg]⟩
  case keyed =>
    intro token id hg
    rw [hgroups] at hg
    obtain ⟨q, hq, htoken⟩ := h.keyed token id hg
    obtain ⟨q', hq', htoken'⟩ := hfind hq
    exact ⟨q', hq', htoken'.trans htoken⟩
  case counted =>
    intro id q hq
    have hsum := hseats id
    rw [hpairs] at hq
    split at hq
    · rename_i hid
      subst hid
      obtain rfl := Option.some.inj hq
      have hold := h.counted id p hp
      omega
    · rename_i hid
      have hold := h.counted id q hq
      simp only [PairHandle.seats, Ne.symm hid, false_and, if_false, Nat.zero_add] at hsum
      rw [hold, hsum]
  case bounded =>
    intro id q hq
    rw [hpairs] at hq
    split at hq
    · obtain rfl := Option.some.inj hq
      exact hbound
    · exact h.bounded id q hq
  case handed =>
    intro id q hq
    rw [hpairs] at hq
    split at hq
    · obtain rfl := Option.some.inj hq
      exact hhanded
    · exact h.handed id q hq
  case seat =>
    intro i id seq q hi hq
    rw [hhandles] at hi
    rw [hpairs] at hq
    split at hi
    · cases hi
      rw [if_pos rfl] at hq
      obtain rfl := Option.some.inj hq
      exact hseat seq rfl
    · split at hq
      · rename_i hid
        obtain rfl := Option.some.inj hq
        exact hmono seq (h.seat i id seq p hi (hid ▸ hp))
      · exact h.seat i id seq q hi hq
  case created =>
    intro id q hq
    rw [hnext]
    rw [hpairs] at hq
    split at hq
    · rename_i hid
      obtain rfl := Option.some.inj hq
      rw [hid, hsame.2]
      exact h.created pair p hp
    · exact h.created id q hq
  case known =>
    intro id hlt
    rw [hnext] at hlt
    rw [hpairs]
    split
    · exact Option.some_ne_none _
    · exact h.known id hlt
  case routers => rw [hnext, hrouter, hsubmitted]; exact h.routers

/-- A holder that is not a member releases its `Arc`. -/
theorem GroupInv.erase {s : SessionGroups} (h : GroupInv s) {j : JoinId} {hd : PairHandle}
    (hj : s.handles.lookup j = some hd) (hmember : hd.isMember = false) :
    GroupInv { s with handles := s.handles.erase j } where
  mapped := by
    intro j' hd' hj'
    simp only [HashMap.lookup_erase_eq] at hj'
    split at hj'
    · cases hj'
    · exact h.mapped j' hd' hj'
  keyed := h.keyed
  counted := by
    intro pair p hp
    have hsum := HashMap.total_erase (f := fun hd : PairHandle => hd.seats pair) hj
    simp only [PairHandle.seats, hmember, Bool.false_eq_true, and_false, if_false,
      Nat.zero_add] at hsum
    rw [h.counted pair p hp]
    exact hsum.symm
  bounded := h.bounded
  handed := h.handed
  seat := by
    intro j' pair seq p hj' hp
    simp only [HashMap.lookup_erase_eq] at hj'
    split at hj'
    · cases hj'
    · exact h.seat j' pair seq p hj' hp
  created := h.created
  known := h.known
  routers := h.routers

/-- The invariant does not speak about results, offers, the channel and deaths. -/
theorem GroupInv.of_eq {s s' : SessionGroups} (h : GroupInv s) (hgroups : s'.groups = s.groups)
    (hpairs : s'.pairs = s.pairs) (hhandles : s'.handles = s.handles)
    (hnext : s'.nextPair = s.nextPair) (hrouter : s'.nextRouter = s.nextRouter)
    (hsubmitted : s'.submitted = s.submitted) : GroupInv s' := by
  obtain ⟨groups, pairs, handles, nextPair, nextRouter, drivers, submitted, results, deadOpeners,
    deadWriters, offers⟩ := s'
  simp only at hgroups hpairs hhandles hnext hrouter hsubmitted
  subst hgroups hpairs hhandles hnext hrouter hsubmitted
  exact ⟨h.mapped, h.keyed, h.counted, h.bounded, h.handed, h.seat, h.created, h.known, h.routers⟩

/-- The handle of a call or member changes. -/
theorem seats_insert {s : SessionGroups} {j : JoinId} {hd : PairHandle} (hd' : PairHandle)
    (hj : s.handles.lookup j = some hd) (id : PairId) :
    hd.seats id + HashMap.total (fun h : PairHandle => h.seats id) (s.handles.insert j hd') =
      hd'.seats id + s.memberCount id :=
  HashMap.total_insert (f := fun h : PairHandle => h.seats id) hd' hj

/-- Whoever takes the lock of a pair finds it free. -/
theorem SessionGroups.lockState_eq_some {s : SessionGroups} {pair : PairId} {p : SessionPair} :
    s.lockState pair = some p ↔ s.pairs.lookup pair = some p ∧ p.lock = none := by
  rw [lockState, Option.filter_eq_some_iff, Option.isNone_iff_eq_none]

/-- The second critical section of `join`. -/
theorem GroupInv.commit {s s' : SessionGroups} (h : GroupInv s) {j : JoinId}
    (hst : s.commit j = some s') : GroupInv s' := by
  unfold SessionGroups.commit at hst
  split at hst
  · rename_i pair opener hj
    split at hst
    · rename_i p hlock
      obtain ⟨hp, -⟩ := lockState_eq_some.mp hlock
      obtain ⟨hpw, hnew, hhead⟩ := h.handed pair p hp
      split at hst
      · -- the group is full
        cases hst
        refine h.update .refused p hj hp rfl (fun id => ?_) (fun i => HashMap.lookup_insert_eq ..)
          (seats_insert _ hj) ⟨rfl, rfl, rfl⟩ ⟨rfl, rfl⟩ rfl (h.bounded pair p hp)
          ⟨hpw, hnew, hhead⟩ (fun _ hn => hn) nofun
        split
        · rename_i hid
          rw [hid, hp]
        · rfl
      · rename_i hfull
        cases hst
        refine h.update _ _ hj hp rfl (fun id => HashMap.lookup_insert_eq ..)
          (fun i => HashMap.lookup_insert_eq ..) (seats_insert _ hj) ⟨rfl, rfl, rfl⟩ ⟨rfl, rfl⟩
          ?_ ?_ ⟨?_, rfl, rfl⟩ (fun _ hn => List.mem_cons_of_mem _ hn) ?_
        · simp only [PairHandle.seats, PairHandle.isMember, true_and, if_true, Bool.false_eq_true,
            if_false]
          omega
        · simp only
          omega
        · refine List.pairwise_cons.mpr ⟨fun n hn => ?_, hpw⟩
          -- every number handed out so far is at most the newest one
          have hle : n ≤ p.state.nextSeq := by
            rw [← hnew, ← hhead]
            cases hl : p.handed with
            | nil =>
              rw [hl] at hn
              cases hn
            | cons m rest =>
              rw [hl] at hn hpw
              rcases List.mem_cons.mp hn with rfl | hn
              · exact Nat.le_refl _
              · exact Nat.le_of_lt (List.rel_of_pairwise_cons hpw hn)
          exact Nat.lt_succ_of_le hle
        · intro seq heq
          cases heq
          exact List.mem_cons_self
    · cases hst
  · cases hst

section Purge

variable (s : SessionGroups) (state : PairState)

@[simp] theorem purge_members : (s.purge state).members = state.members := by
  unfold SessionGroups.purge
  simp only
  split <;> rfl

@[simp] theorem purge_nextSeq : (s.purge state).nextSeq = state.nextSeq := by
  unfold SessionGroups.purge
  simp only
  split <;> rfl

@[simp] theorem purge_newestSeq : (s.purge state).newestSeq = state.newestSeq := by
  unfold SessionGroups.purge
  simp only
  split <;> rfl

end Purge

/-- A pair changes, but for its account. -/
theorem GroupInv.relock {s s' : SessionGroups} (h : GroupInv s) {pair : PairId}
    {p p' : SessionPair} (hp : s.pairs.lookup pair = some p) (hgroups : s'.groups = s.groups)
    (hpairs : s'.pairs = s.pairs.insert pair p') (hhandles : s'.handles = s.handles)
    (hcreated : s'.nextPair = s.nextPair ∧ s'.nextRouter = s.nextRouter ∧
      s'.submitted = s.submitted)
    (hsame : p'.token = p.token ∧ p'.feed = p.feed ∧ p'.handed = p.handed)
    (hstate : p'.state.members = p.state.members ∧ p'.state.nextSeq = p.state.nextSeq ∧
      p'.state.newestSeq = p.state.newestSeq) : GroupInv s' := by
  obtain ⟨hnext, hrouter, hsubmitted⟩ := hcreated
  obtain ⟨htoken, hfeed, hhanded⟩ := hsame
  obtain ⟨hmembers, hseq, hnewest⟩ := hstate
  -- every pair is found with the account it had
  have hfind : ∀ {id q'}, s'.pairs.lookup id = some q' → ∃ q, s.pairs.lookup id = some q ∧
      q'.token = q.token ∧ q'.feed = q.feed ∧ q'.handed = q.handed ∧
      q'.state.members = q.state.members ∧ q'.state.nextSeq = q.state.nextSeq ∧
      q'.state.newestSeq = q.state.newestSeq := by
    intro id q' hq'
    rw [hpairs, HashMap.lookup_insert_eq] at hq'
    split at hq'
    · rename_i hid
      obtain rfl := Option.some.inj hq'
      exact ⟨p, hid ▸ hp, htoken, hfeed, hhanded, hmembers, hseq, hnewest⟩
    · exact ⟨q', hq', rfl, rfl, rfl, rfl, rfl, rfl⟩
  have hkept : ∀ {id q}, s.pairs.lookup id = some q →
      ∃ q', s'.pairs.lookup id = some q' ∧ q'.token = q.token := by
    intro id q hq
    rw [hpairs, HashMap.lookup_insert_eq]
    split
    · rename_i hid
      rw [hid, hp] at hq
      obtain rfl := Option.some.inj hq
      exact ⟨p', rfl, htoken⟩
    · exact ⟨q, hq, rfl⟩
  constructor
  case mapped =>
    intro j hd hj
    rw [hhandles] at hj
    obtain ⟨q, hq, hg⟩ := h.mapped j hd hj
    obtain ⟨q', hq', htoken'⟩ := hkept hq
    exact ⟨q', hq', by rw [hgroups, htoken', hg]⟩
  case keyed =>
    intro token id hg
    rw [hgroups] at hg
    obtain ⟨q, hq, htoken'⟩ := h.keyed token id hg
    obtain ⟨q', hq', heq⟩ := hkept hq
    exact ⟨q', hq', heq.trans htoken'⟩
  case counted =>
    intro id q' hq'
    obtain ⟨q, hq, -, -, -, hm, -, -⟩ := hfind hq'
    rw [hm, h.counted id q hq, memberCount, memberCount, hhandles]
  case bounded =>
    intro id q' hq'
    obtain ⟨q, hq, -, -, -, hm, -, -⟩ := hfind hq'
    rw [hm]
    exact h.bounded id q hq
  case handed =>
    intro id q' hq'
    obtain ⟨q, hq, -, -, hh, -, hs, hn⟩ := hfind hq'
    rw [hh, hs, hn]
    exact h.handed id q hq
  case seat =>
    intro j id seq q' hj hq'
    obtain ⟨q, hq, -, -, hh, -, -, -⟩ := hfind hq'
    rw [hh]
    exact h.seat j id seq q (hhandles ▸ hj) hq
  case created =>
    intro id q' hq'
    obtain ⟨q, hq, -, hf, -, -, -, -⟩ := hfind hq'
    rw [hnext, hf]
    exact h.created id q hq
  case known =>
    intro id hlt
    rw [hnext] at hlt
    obtain ⟨q, hq⟩ := Option.ne_none_iff_exists'.mp (h.known id hlt)
    obtain ⟨q', hq', -⟩ := hkept hq
    rw [hq']
    exact Option.some_ne_none _
  case routers =>
    rw [hnext, hrouter, hsubmitted]
    exact h.routers

/-- `register_writer` up to its offer. -/
theorem GroupInv.registerWriter {s s' : SessionGroups} (h : GroupInv s) {j : JoinId}
    {writer : WriterId} (hst : s.registerWriter j writer = some s') : GroupInv s' := by
  unfold SessionGroups.registerWriter at hst
  split at hst
  · split at hst
    · rename_i p hlock
      cases hst
      exact h.relock (lockState_eq_some.mp hlock).1 rfl rfl rfl ⟨rfl, rfl, rfl⟩ ⟨rfl, rfl, rfl⟩
        ⟨rfl, rfl, rfl⟩
    · cases hst
  · cases hst

/-- A step of the call that holds a lock. -/
theorem GroupInv.advance {s s' : SessionGroups} (h : GroupInv s) {pair : PairId}
    (hst : s.advance pair = some s') : GroupInv s' := by
  unfold SessionGroups.advance at hst
  split at hst
  · rename_i p hp
    split at hst
    · cases hst
      exact h.relock hp rfl rfl rfl ⟨rfl, rfl, rfl⟩ ⟨rfl, rfl, rfl⟩ ⟨rfl, rfl, rfl⟩
    · cases hst
      exact h.relock hp rfl rfl rfl ⟨rfl, rfl, rfl⟩ ⟨rfl, rfl, rfl⟩ ⟨rfl, rfl, rfl⟩
    · cases hst
      exact h.relock hp rfl rfl rfl ⟨rfl, rfl, rfl⟩ ⟨rfl, rfl, rfl⟩
        ⟨purge_members .., purge_nextSeq .., purge_newestSeq ..⟩
    · cases hst
  · cases hst

/-- A member that leaves its pair keeps the invariant. -/
theorem GroupInv.dropMember {s s' : SessionGroups} (h : GroupInv s) {j : JoinId}
    (hst : s.dropMember j = some s') : GroupInv s' := by
  unfold SessionGroups.dropMember at hst
  split at hst
  · rename_i pair seq hj
    split at hst
    · rename_i p hlock
      obtain ⟨hp, -⟩ := lockState_eq_some.mp hlock
      cases hst
      have hpos : PairHandle.seats ⟨pair, .member seq⟩ pair ≤ p.state.members := by
        rw [h.counted pair p hp]
        exact HashMap.le_total (f := fun hd : PairHandle => hd.seats pair) hj
      have hbound := h.bounded pair p hp
      refine h.update _ _ hj hp rfl (fun id => HashMap.lookup_insert_eq ..)
        (fun i => HashMap.lookup_insert_eq ..) (seats_insert _ hj) ⟨rfl, rfl, rfl⟩ ⟨rfl, rfl⟩
        ?_ ?_ (h.handed pair p hp) (fun _ hn => hn) nofun
      · simp only [PairHandle.seats, PairHandle.isMember, true_and, if_true, Bool.false_eq_true,
          if_false] at hpos ⊢
        omega
      · simp only
        omega
    · cases hst
  · cases hst

/-! ## Whole runs -/

/-- **Step lemma.** Every step keeps the invariant of the registry. -/
theorem GroupInv.step {s s' : SessionGroups} {e : GroupEvent} (h : GroupInv s)
    (hst : s.step e = some s') : GroupInv s' := by
  -- the first critical section of a join is `lookup`, the second `commit`; others run between
  cases e with
  | lookup j token opener =>
    simp only [SessionGroups.step, SessionGroups.lookup] at hst
    split at hst
    · cases hst
    · rename_i hfree
      replace hfree : s.handles.lookup j = none := AList.lookup_eq_none.mpr hfree
      have hretain := h.retain
      split at hst
      · rename_i pair hgroup
        cases hst
        exact hretain.found opener hfree hgroup
      · rename_i hgroup
        split at hst
        · cases hst
          exact hretain.createPair opener hfree hgroup
        · cases hst
          exact hretain.of_eq rfl rfl rfl rfl rfl rfl
  | commit j => exact h.commit hst
  | registerWriter j writer => exact h.registerWriter hst
  | advance pair => exact h.advance hst
  | dropMember j => exact h.dropMember hst
  | release j =>
    simp only [SessionGroups.step, SessionGroups.release] at hst
    split at hst
    · rename_i hj
      cases hst
      exact h.erase hj rfl
    · rename_i hj
      cases hst
      exact h.erase hj rfl
    · cases hst
  | receiveDriver =>
    cases hst
    exact h.of_eq rfl rfl rfl rfl rfl rfl
  | closeScope =>
    cases hst
    exact h.of_eq rfl rfl rfl rfl rfl rfl
  | openerDies opener =>
    cases hst
    exact h.of_eq rfl rfl rfl rfl rfl rfl
  | writerDies writer =>
    cases hst
    exact h.of_eq rfl rfl rfl rfl rfl rfl

/-- **Run lemma.** -/
theorem groupInv_of_reaches {bound : Nat} {s : SessionGroups}
    (h : (sessionGroups bound).Reaches s) : GroupInv s :=
  h.invariant (groupInv_init bound) fun _ _ _ hs hst => hs.step hst

/-- What the registry guarantees. -/
structure GroupSafety (s : SessionGroups) : Prop where
  /-- at most one live pair per token -/
  onePair : ∀ a b p q, s.Alive a → s.Alive b → s.pairs.lookup a = some p →
    s.pairs.lookup b = some q → p.token = q.token → a = b
  /-- the live members of a token share a pair, which is alive -/
  shared : ∀ i j hi hj p q, s.handles.lookup i = some hi → s.handles.lookup j = some hj →
    hi.isMember = true → hj.isMember = true → s.pairs.lookup hi.pair = some p →
    s.pairs.lookup hj.pair = some q → p.token = q.token → hi.pair = hj.pair ∧ s.Alive hi.pair
  /-- `members` counts the live members, of which there are at most two -/
  members : ∀ pair p, s.pairs.lookup pair = some p →
    p.state.members = s.memberCount pair ∧ p.state.members ≤ 2
  /-- `members -= 1` does not underflow -/
  noUnderflow : ∀ j pair seq p, s.handles.lookup j = some ⟨pair, .member seq⟩ →
    s.pairs.lookup pair = some p → 0 < p.state.members
  /-- sequence numbers (newest first) are strictly increasing, and `newest_seq` is the largest -/
  sequence : ∀ pair p, s.pairs.lookup pair = some p → p.handed.Pairwise (· > ·) ∧
    (∀ seq ∈ p.handed, seq ≤ p.state.newestSeq) ∧
    (p.handed ≠ [] → p.state.newestSeq ∈ p.handed)
  /-- a live member's number was handed out by its pair -/
  seat : ∀ j pair seq p, s.handles.lookup j = some ⟨pair, .member seq⟩ →
    s.pairs.lookup pair = some p → seq ∈ p.handed
  /-- one driver is submitted for every pair created -/
  drivers : ∀ pair p, s.pairs.lookup pair = some p → s.submitted.count p.feed = 1
  /-- and none for anything else; every router that was spawned was submitted -/
  routers : (∀ router ∈ s.submitted, ∃ pair p, s.pairs.lookup pair = some p ∧ p.feed = router) ∧
    (∀ a b p q, s.pairs.lookup a = some p → s.pairs.lookup b = some q → p.feed = q.feed → a = b) ∧
    s.submitted.length = s.nextRouter
  /-- a join that the driver channel refuses creates neither a group nor a router -/
  refused : ∀ j token opener error s', s.step (.lookup j token opener) = some s' →
    s'.results = (j, .error error) :: s.results →
    s'.pairs = s.pairs ∧ s'.handles = s.handles ∧ s'.nextRouter = s.nextRouter ∧
      s'.submitted = s.submitted ∧ s'.drivers = s.drivers ∧
      ∀ t, s'.groups.lookup t = none ∨ s'.groups.lookup t = s.groups.lookup t

/-- Two handles whose pairs have one token are of one pair. -/
theorem GroupInv.holder_unique {s : SessionGroups} (h : GroupInv s) {i j : JoinId}
    {hi hj : PairHandle} {p q : SessionPair} (hhi : s.handles.lookup i = some hi)
    (hhj : s.handles.lookup j = some hj) (hp : s.pairs.lookup hi.pair = some p)
    (hq : s.pairs.lookup hj.pair = some q) (htoken : p.token = q.token) : hi.pair = hj.pair := by
  obtain ⟨p', hp', hgi⟩ := h.mapped i hi hhi
  obtain ⟨q', hq', hgj⟩ := h.mapped j hj hhj
  rw [hp] at hp'
  rw [hq] at hq'
  obtain rfl := Option.some.inj hp'
  obtain rfl := Option.some.inj hq'
  rw [htoken, hgj] at hgi
  exact (Option.some.inj hgi).symm

/-- The newest number of a pair is handed out, and no handed number is larger. -/
theorem GroupInv.le_newest {s : SessionGroups} (h : GroupInv s) {pair : PairId} {p : SessionPair}
    (hp : s.pairs.lookup pair = some p) :
    (∀ seq ∈ p.handed, seq ≤ p.state.newestSeq) ∧
      (p.handed ≠ [] → p.state.newestSeq ∈ p.handed) := by
  obtain ⟨hpw, -, hhead⟩ := h.handed pair p hp
  rw [← hhead]
  cases hl : p.handed with
  | nil => exact ⟨nofun, fun hne => absurd rfl hne⟩
  | cons m rest =>
    rw [hl] at hpw
    refine ⟨fun seq hseq => ?_, fun _ => List.mem_cons_self⟩
    rcases List.mem_cons.mp hseq with rfl | hseq
    · exact Nat.le_refl _
    · exact Nat.le_of_lt (List.rel_of_pairwise_cons hpw hseq)

/-- A refused lookup only forgets dead groups. -/
theorem SessionGroups.lookup_refused {s s' : SessionGroups} {j : JoinId} {token : GroupToken}
    {opener : OpenerId} {error : GroupJoinError} (hst : s.lookup j token opener = some s')
    (hres : s'.results = (j, .error error) :: s.results) :
    s' = { s with
      groups := HashMap.retain (fun _ pair => 0 < s.strongCount pair) s.groups
      results := (j, .error error) :: s.results } := by
  unfold SessionGroups.lookup at hst
  split at hst
  · cases hst
  simp only at hst
  split at hst
  · cases hst
    simp at hres
  split at hst
  · cases hst
    simp [SessionGroups.createPair] at hres
  · cases hst
    simp only [List.cons.injEq, Prod.mk.injEq, Except.error.injEq, true_and, and_true] at hres
    rw [hres]

/-- **Session-group registry safety.** In every reachable state there is at most one live
pair per token and its members share it, `members` counts them and never exceeds two or
underflows, sequence numbers grow, pairs and drivers correspond one to one, and a join
refused by the driver channel leaves nothing behind. -/
theorem group_registry_safety (bound : Nat) (s : SessionGroups)
    (h : (sessionGroups bound).Reaches s) : GroupSafety s := by
  have hinv := groupInv_of_reaches h
  obtain ⟨hnext, hsubmitted⟩ := hinv.routers
  constructor
  case onePair =>
    intro a b p q ha hb hp hq htoken
    obtain ⟨i, hi, hhi, hpos⟩ := HashMap.exists_of_total_pos ha
    obtain ⟨j, hj, hhj, hpos'⟩ := HashMap.exists_of_total_pos hb
    obtain rfl : hi.pair = a := by
      by_contra hne
      simp [hne] at hpos
    obtain rfl : hj.pair = b := by
      by_contra hne
      simp [hne] at hpos'
    exact hinv.holder_unique hhi hhj hp hq htoken
  case shared =>
    intro i j hi hj p q hhi hhj _ _ hp hq htoken
    exact ⟨hinv.holder_unique hhi hhj hp hq htoken, alive_of_handle hhi⟩
  case members => exact fun pair p hp => ⟨hinv.counted pair p hp, hinv.bounded pair p hp⟩
  case noUnderflow =>
    intro j pair seq p hj hp
    rw [hinv.counted pair p hp]
    have hle := HashMap.le_total (f := fun hd : PairHandle => hd.seats pair) hj
    have hone : PairHandle.seats ⟨pair, .member seq⟩ pair = 1 := by
      simp [PairHandle.seats, PairHandle.isMember]
    exact Nat.lt_of_lt_of_le Nat.zero_lt_one (hone ▸ hle)
  case sequence => exact fun pair p hp => ⟨(hinv.handed pair p hp).1, hinv.le_newest hp⟩
  case seat => exact hinv.seat
  case drivers =>
    intro pair p hp
    obtain ⟨hlt, hfeed⟩ := hinv.created pair p hp
    rw [hsubmitted, hfeed, List.count_reverse]
    exact List.count_eq_one_of_mem List.nodup_range (List.mem_range.mpr hlt)
  case routers =>
    refine ⟨fun router hmem => ?_, fun a b p q hp hq hfeed => ?_, ?_⟩
    · rw [hsubmitted, List.mem_reverse, List.mem_range] at hmem
      obtain ⟨p, hp⟩ := Option.ne_none_iff_exists'.mp (hinv.known router hmem)
      exact ⟨router, p, hp, (hinv.created router p hp).2⟩
    · rw [← (hinv.created a p hp).2, ← (hinv.created b q hq).2, hfeed]
    · rw [hsubmitted, List.length_reverse, List.length_range, hnext]
  case refused =>
    intro j token opener error s' hst hres
    rw [SessionGroups.lookup_refused hst hres]
    refine ⟨rfl, rfl, rfl, rfl, rfl, fun t => ?_⟩
    simp only [HashMap.lookup_retain]
    rcases hg : s.groups.lookup t with _ | pair
    · exact .inl rfl
    · rw [Option.filter_some]
      split
      · exact .inr rfl
      · exact .inl rfl

/-- Two sessions join a token, a third is refused, and another token is refused by the full
driver channel. -/
def joinsRun : List GroupEvent :=
  [.lookup 0 ⟨1⟩ 10, .lookup 1 ⟨1⟩ 11, .commit 1, .advance 0, .commit 0, .lookup 2 ⟨1⟩ 12,
    .advance 0, .commit 2, .lookup 3 ⟨2⟩ 13, .dropMember 1, .release 1]

/-- After these joins the first pair has one member left, and one driver was submitted. -/
theorem group_registry_safety_joins :
    ∃ s, (sessionGroups 1).Reaches s ∧
      s.results.map Prod.fst = [3, 2, 0, 1] ∧ s.memberCount 0 = 1 ∧ s.submitted = [0] ∧
      GroupSafety s := by
  have hrun : ∃ s, (sessionGroups 1).Reaches s ∧ s.results.map Prod.fst = [3, 2, 0, 1] ∧
      s.memberCount 0 = 1 ∧ s.submitted = [0] :=
    ⟨_, ⟨joinsRun, Machine.run_of_exec rfl⟩, rfl, rfl, rfl⟩
  obtain ⟨s, hs, hresults, hcount, hsubmitted⟩ := hrun
  exact ⟨s, hs, hresults, hcount, hsubmitted, group_registry_safety 1 s hs⟩

end RtpMux

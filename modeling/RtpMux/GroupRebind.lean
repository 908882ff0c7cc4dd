import RtpMux.GroupSafety

/-!
# Server streams follow the newest session (`group.rs`)

A server stream registers its write half with the group of its session. When a newer
session joins, every registered writer is offered the newcomer's opener; a stream that
is registered on a member which is no longer the newest is offered the newest opener on
the spot. An opener that is found dead is offered to nobody, and dead writers leave the list
whenever it is rewritten.

What a stream was promised depends on what had happened when it was registered and when
the newest member joined, so the results are about the groups with a history of both
(`RebindHistory`). A call reads once whether an opener is alive, when it takes the lock, and
makes its offers afterwards. The history keeps what was dead at that moment: an opener may die
before its last offer is made (`opener_dies_before_its_offer`), but it was alive when the call
looked.

`RebindInv` joins the two paths: the list keeps every live registered writer, the pair's
newest opener is that of the last join, and every registration not made by the newest
member has been followed by an offer of that opener unless it was dead by then, or the offer
is one that the join under way still has to make.
-/

namespace RtpMux

open SessionGroups

/-- A call of `register_writer` that has put its writer on the list. -/
structure Registration where
  pair : PairId
  writer : WriterId
  /-- the member's sequence number -/
  seq : Nat
  /-- the openers that were dead when it looked -/
  dead : List OpenerId
  deriving DecidableEq, Repr

/-- A `join` that took a seat. -/
structure Joining where
  pair : PairId
  seq : Nat
  opener : OpenerId
  /-- whether the opener was alive when it looked -/
  alive : Bool
  deriving DecidableEq, Repr

/-- What has happened in the groups, newest first. -/
structure RebindHistory where
  registered : List Registration
  joined : List Joining
  /-- whenever a call took the lock of a pair to make offers, the openers that were dead -/
  read : List (PairId × List OpenerId)
  deriving DecidableEq, Repr

namespace RebindHistory

/-- Nothing has happened yet. -/
def start : RebindHistory := ⟨[], [], []⟩

/-- The newest member of a pair. -/
def newest (past : RebindHistory) (pair : PairId) : Option Joining :=
  past.joined.find? fun j => j.pair = pair

/-- The openers that were dead when a call last looked before its offers in a pair. -/
def deadAtRead (past : RebindHistory) (pair : PairId) : List OpenerId :=
  ((past.read.find? fun look => look.1 = pair).map Prod.snd).getD []

/-- A call looks which openers are alive. -/
def look (past : RebindHistory) (pair : PairId) (dead : List OpenerId) : RebindHistory :=
  { past with read := (pair, dead) :: past.read }

/-- What event `e`, taken in `s`, adds to the history. -/
def record (s : SessionGroups) (e : GroupEvent) (past : RebindHistory) : RebindHistory :=
  match e with
  | .commit join =>
    match s.handles.lookup join with
    | some ⟨pair, .joining opener⟩ =>
      match s.lockState pair with
      | some p =>
        if 2 ≤ p.state.members then past
        else { past.look pair s.deadOpeners with
          joined := ⟨pair, p.state.nextSeq + 1, opener, s.openerAlive opener⟩ :: past.joined }
      | none => past
    | _ => past
  | .registerWriter member _ =>
    match s.handles.lookup member with
    | some ⟨pair, .member _⟩ => past.look pair s.deadOpeners
    | _ => past
  | .advance pair =>
    match (s.pairs.lookup pair).bind (·.lock) with
    | some (.registering seq writer _) =>
      { past with
        registered := ⟨pair, writer, seq, past.deadAtRead pair⟩ :: past.registered }
    | _ => past
  | _ => past

end RebindHistory

/-- The last opener offered to a writer through `rebind`. -/
def SessionGroups.lastOffer (s : SessionGroups) (writer : WriterId) : Option OpenerId :=
  (s.offers.find? fun offer => offer.1 = writer).map Prod.snd

/-! ## What one step does to writers and offers -/

/-- The step leaves the writers, the newest member, the locks and the offers alone; it may create
an empty pair, and writers may die. -/
structure RebindFrame (s s' : SessionGroups) : Prop where
  offers : s'.offers = s.offers
  alive : ∀ writer, s'.writerAlive writer = true → s.writerAlive writer = true
  pairs : ∀ pair p', s'.pairs.lookup pair = some p' →
    (∃ p, s.pairs.lookup pair = some p ∧ p'.state.writers = p.state.writers ∧
      p'.state.newestSeq = p.state.newestSeq ∧ p'.state.newestOpener = p.state.newestOpener ∧
      p'.lock = p.lock) ∨
    (s.pairs.lookup pair = none ∧ p'.state.writers = [] ∧ p'.lock = none)
  kept : ∀ pair p, s.pairs.lookup pair = some p → ∃ p', s'.pairs.lookup pair = some p'

/-- The step changes one pair, to state `state` and lock `lock`. -/
structure PairUpdate (s s' : SessionGroups) (pair : PairId) (p : SessionPair) (state : PairState)
    (lock : Option PairSection) : Prop where
  before : s.pairs.lookup pair = some p
  after : ∃ handed, ∀ id, s'.pairs.lookup id =
    if id = pair then some { p with state, lock, handed } else s.pairs.lookup id
  dead : s'.deadWriters = s.deadWriters

/-- The opener that `register_writer` of the member `seq` looks for. -/
def SessionGroups.target (s : SessionGroups) (state : PairState) (seq : Nat) : Option OpenerId :=
  if state.newestSeq ≠ seq then state.newestOpener.filter s.openerAlive else none

/-- The effect of one step on writers and offers, with what it adds to the history. -/
inductive RebindStep (s : SessionGroups) (past : RebindHistory) :
    GroupEvent → SessionGroups → RebindHistory → Prop where
  | quiet {e s'} (frame : RebindFrame s s') : RebindStep s past e s' past
  /-- a newer session takes its seat -/
  | joined {join s' pair p state opener}
      (update : PairUpdate s s' pair p state
        (if s.openerAlive opener then some (.offering opener state.writers) else none))
      (writers : state.writers = p.state.writers.filter s.writerAlive)
      (newest : state.newestSeq = p.state.nextSeq + 1 ∧ state.newestOpener = some opener)
      (offers : s'.offers = s.offers) :
      RebindStep s past (.commit join) s' { past.look pair s.deadOpeners with
        joined := ⟨pair, p.state.nextSeq + 1, opener, s.openerAlive opener⟩ :: past.joined }
  /-- it offers its opener to one writer -/
  | offers {s' pair p opener writer todo}
      (update : PairUpdate s s' pair p p.state (some (.offering opener todo)))
      (lock : p.lock = some (.offering opener (writer :: todo)))
      (offers : s'.offers = (writer, opener) :: s.offers) :
      RebindStep s past (.advance pair) s' past
  /-- it has no writer left -/
  | unlocks {s' pair p opener}
      (update : PairUpdate s s' pair p p.state none)
      (lock : p.lock = some (.offering opener []))
      (offers : s'.offers = s.offers) : RebindStep s past (.advance pair) s' past
  /-- a stream looks for the opener its writer has to be sent to -/
  | looks {member s' pair p seq writer}
      (update : PairUpdate s s' pair p p.state
        (some (.registering seq writer (s.target p.state seq))))
      (lock : p.lock = none)
      (offers : s'.offers = s.offers) :
      RebindStep s past (.registerWriter member writer) s' (past.look pair s.deadOpeners)
  /-- and registers its writer -/
  | registered {s' pair p state seq writer target}
      (update : PairUpdate s s' pair p state none)
      (lock : p.lock = some (.registering seq writer target))
      (writers : state.writers = (s.purge p.state).writers ++ [writer])
      (newest : state.newestSeq = p.state.newestSeq ∧ state.newestOpener = p.state.newestOpener)
      (offers : s'.offers = (target.map fun opener => (writer, opener)).toList ++ s.offers) :
      RebindStep s past (.advance pair) s' { past with
        registered := ⟨pair, writer, seq, past.deadAtRead pair⟩ :: past.registered }

@[simp] theorem purge_newestOpener (s : SessionGroups) (state : PairState) :
    (s.purge state).newestOpener = state.newestOpener := by
  simp only [SessionGroups.purge]
  split <;> rfl

/-- The purge forgets no live writer and invents none. -/
theorem mem_purge {s : SessionGroups} {state : PairState} {writer : WriterId} :
    (writer ∈ (s.purge state).writers → writer ∈ state.writers) ∧
    (writer ∈ state.writers → s.writerAlive writer = true →
      writer ∈ (s.purge state).writers) := by
  simp only [SessionGroups.purge]
  split
  · constructor
    · exact fun h => List.mem_of_mem_filter h
    · exact fun h halive => List.mem_filter.mpr ⟨h, halive⟩
  · exact ⟨id, fun h _ => h⟩

namespace RebindFrame

/-- A step that keeps pairs and offers, and revives no writer. -/
theorem of_eq {s s' : SessionGroups} (hpairs : s'.pairs = s.pairs)
    (hoffers : s'.offers = s.offers) (hdead : s.deadWriters ⊆ s'.deadWriters) :
    RebindFrame s s' where
  offers := hoffers
  alive := by
    intro writer hw
    simp only [writerAlive, decide_eq_true_eq] at hw ⊢
    exact fun hmem => hw (hdead hmem)
  pairs := by
    intro pair p' hp'
    rw [hpairs] at hp'
    exact .inl ⟨p', hp', rfl, rfl, rfl, rfl⟩
  kept := by
    intro pair p hp
    exact ⟨p, by rw [hpairs, hp]⟩

end RebindFrame

/-- **Inversion.** -/
theorem RebindStep.of_step {s s' : SessionGroups} {e : GroupEvent} (hI : GroupInv s)
    (past : RebindHistory) (h : s.step e = some s') :
    RebindStep s past e s' (RebindHistory.record s e past) := by
  cases e with
  | lookup join token opener =>
    simp only [SessionGroups.step, SessionGroups.lookup] at h
    split at h
    · cases h
    split at h
    · cases h
      exact .quiet (.of_eq rfl rfl (List.Subset.refl _))
    split at h
    · -- the new pair takes a number that no pair has
      cases h
      have hfree : s.pairs.lookup s.nextPair = none := by
        rw [Option.eq_none_iff_forall_ne_some]
        intro p hp
        exact absurd (hI.created _ p hp).1 (Nat.lt_irrefl _)
      refine .quiet ⟨rfl, fun _ h => h, ?_, ?_⟩
      · intro pair p' hp'
        simp only [createPair, HashMap.lookup_insert_eq] at hp'
        split at hp'
        · rename_i hpair
          cases hp'
          exact .inr ⟨by rw [hpair, hfree], rfl, rfl⟩
        · exact .inl ⟨p', hp', rfl, rfl, rfl, rfl⟩
      · intro pair p hp
        simp only [createPair, HashMap.lookup_insert_eq]
        split
        · exact ⟨_, rfl⟩
        · exact ⟨p, hp⟩
    · cases h
      exact .quiet (.of_eq rfl rfl (List.Subset.refl _))
  | commit join =>
    simp only [SessionGroups.step, SessionGroups.commit] at h
    split at h
    · rename_i pair opener hj
      split at h
      · rename_i p hlock
        obtain ⟨hp, -⟩ := lockState_eq_some.mp hlock
        split at h
        · rename_i hfull
          cases h
          simp only [RebindHistory.record, hj, hlock, hfull, if_true]
          exact .quiet (.of_eq rfl rfl (List.Subset.refl _))
        · rename_i hfull
          cases h
          simp only [RebindHistory.record, hj, hlock, hfull, if_false]
          exact .joined ⟨hp, ⟨_, fun id => HashMap.lookup_insert_eq ..⟩, rfl⟩ rfl ⟨rfl, rfl⟩ rfl
      · cases h
    · cases h
  | registerWriter member writer =>
    simp only [SessionGroups.step, SessionGroups.registerWriter] at h
    split at h
    · rename_i pair seq hj
      split at h
      · rename_i p hlock
        obtain ⟨hp, hfree⟩ := lockState_eq_some.mp hlock
        cases h
        simp only [RebindHistory.record, hj]
        exact .looks ⟨hp, ⟨_, fun id => HashMap.lookup_insert_eq ..⟩, rfl⟩ hfree rfl
      · cases h
    · cases h
  | advance pair =>
    simp only [SessionGroups.step, SessionGroups.advance] at h
    split at h
    · rename_i p hp
      split at h
      · rename_i hlock
        cases h
        simp only [RebindHistory.record, hp, Option.bind_some, hlock]
        exact .offers ⟨hp, ⟨_, fun id => HashMap.lookup_insert_eq ..⟩, rfl⟩ hlock rfl
      · rename_i hlock
        cases h
        simp only [RebindHistory.record, hp, Option.bind_some, hlock]
        exact .unlocks ⟨hp, ⟨_, fun id => HashMap.lookup_insert_eq ..⟩, rfl⟩ hlock rfl
      · rename_i hlock
        cases h
        simp only [RebindHistory.record, hp, Option.bind_some, hlock]
        exact .registered ⟨hp, ⟨_, fun id => HashMap.lookup_insert_eq ..⟩, rfl⟩ hlock rfl
          ⟨by simp, by simp⟩ rfl
      · cases h
    · cases h
  | dropMember member =>
    simp only [SessionGroups.step, SessionGroups.dropMember] at h
    split at h
    · split at h
      · rename_i p hlock
        obtain ⟨hp, -⟩ := lockState_eq_some.mp hlock
        cases h
        refine .quiet ⟨rfl, fun _ h => h, ?_, ?_⟩
        · intro id p' hp'
          simp only [HashMap.lookup_insert_eq] at hp'
          split at hp'
          · rename_i hid
            cases hp'
            exact .inl ⟨p, by rw [hid, hp], rfl, rfl, rfl, rfl⟩
          · exact .inl ⟨p', hp', rfl, rfl, rfl, rfl⟩
        · intro id q hq
          simp only [HashMap.lookup_insert_eq]
          split
          · exact ⟨_, rfl⟩
          · exact ⟨q, hq⟩
      · cases h
    · cases h
  | release holder =>
    simp only [SessionGroups.step, SessionGroups.release] at h
    split at h
    · cases h
      exact .quiet (.of_eq rfl rfl (List.Subset.refl _))
    · cases h
      exact .quiet (.of_eq rfl rfl (List.Subset.refl _))
    · cases h
  | receiveDriver =>
    cases h
    exact .quiet (.of_eq rfl rfl (List.Subset.refl _))
  | closeScope =>
    cases h
    exact .quiet (.of_eq rfl rfl (List.Subset.refl _))
  | openerDies opener =>
    cases h
    exact .quiet (.of_eq rfl rfl (List.Subset.refl _))
  | writerDies writer =>
    cases h
    exact .quiet (.of_eq rfl rfl (List.subset_cons_self _ _))

/-! ## The invariant -/

/-- `writer` has registered with `pair` and with no other pair. -/
def RebindHistory.OnlyIn (past : RebindHistory) (writer : WriterId) (pair : PairId) : Prop :=
  ∀ r ∈ past.registered, r.writer = writer → r.pair = pair

/-- What is known of the call that holds the lock of a pair: the openers it has still to offer
were alive when it looked. -/
def RebindHistory.Holds (past : RebindHistory) (pair : PairId) (state : PairState) :
    PairSection → Prop
  | .offering opener todo =>
    (∃ j, past.newest pair = some j ∧ j.opener = opener) ∧ (∀ w ∈ todo, w ∈ state.writers) ∧
      opener ∉ past.deadAtRead pair
  | .registering seq _ target =>
    (∀ opener ∈ target, state.newestOpener = some opener ∧ opener ∉ past.deadAtRead pair) ∧
      ∀ opener, state.newestOpener = some opener → state.newestSeq ≠ seq →
        opener ∉ past.deadAtRead pair → target = some opener

/-- A writer was last offered `opener`, or the join that holds the lock of its pair is about to
do that. -/
def SessionGroups.Offered (s : SessionGroups) (writer : WriterId) (pair : PairId)
    (opener : OpenerId) : Prop :=
  s.lastOffer writer = some opener ∨
    ∃ p todo, s.pairs.lookup pair = some p ∧ p.lock = some (.offering opener todo) ∧ writer ∈ todo

/-- The invariant of the groups with their history. -/
structure RebindInv (s : SessionGroups) (past : RebindHistory) : Prop where
  /-- who has registered or joined is with a pair that exists -/
  known : (∀ r ∈ past.registered, ∃ p, s.pairs.lookup r.pair = some p) ∧
    ∀ j ∈ past.joined, ∃ p, s.pairs.lookup j.pair = some p
  /-- a pair's newest member is its last joiner -/
  newest : ∀ pair p j, s.pairs.lookup pair = some p → past.newest pair = some j →
    p.state.newestSeq = j.seq ∧ p.state.newestOpener = some j.opener
  /-- live registered writers are in the list -/
  present : ∀ r ∈ past.registered, ∀ p, s.pairs.lookup r.pair = some p →
    s.writerAlive r.writer = true → r.writer ∈ p.state.writers
  /-- and only registered writers are -/
  listed : ∀ pair p, s.pairs.lookup pair = some p → ∀ writer ∈ p.state.writers,
    ∃ r ∈ past.registered, r.pair = pair ∧ r.writer = writer
  locked : ∀ pair p held, s.pairs.lookup pair = some p → p.lock = some held →
    past.Holds pair p.state held
  /-- a live writer has last been offered the newest opener, or will be by the join under way,
  unless the newest member registered it or that opener was dead by then -/
  offered : ∀ r ∈ past.registered, ∀ j, past.newest r.pair = some j →
    past.OnlyIn r.writer r.pair → s.writerAlive r.writer = true → j.alive = true →
    j.opener ∉ r.dead → r.seq = j.seq ∨ s.Offered r.writer r.pair j.opener

namespace RebindInv

/-- The registry starts with an empty history. -/
theorem init (bound : Nat) : RebindInv (SessionGroups.init bound) .start where
  known := by simp [RebindHistory.start]
  newest := by simp [RebindHistory.start, RebindHistory.newest]
  present := by simp [RebindHistory.start]
  listed := by simp [SessionGroups.init]
  locked := by simp [SessionGroups.init]
  offered := by simp [RebindHistory.start]

variable {s s' : SessionGroups} {past past' : RebindHistory}

/-- The newest member of a pair has joined it. -/
theorem newest_mem {pair : PairId} {j : Joining} (h : past.newest pair = some j) :
    j ∈ past.joined ∧ j.pair = pair := by
  refine ⟨List.mem_of_find?_eq_some h, ?_⟩
  simpa using List.find?_some h

/-- Steps outside the invariant's reach. -/
theorem quiet (hi : RebindInv s past) (hf : RebindFrame s s') : RebindInv s' past where
  known := by
    constructor
    · intro r hr
      obtain ⟨p, hp⟩ := hi.known.1 r hr
      exact hf.kept _ p hp
    · intro j hj
      obtain ⟨p, hp⟩ := hi.known.2 j hj
      exact hf.kept _ p hp
  newest := by
    intro pair p' j hp' hj
    rcases hf.pairs pair p' hp' with ⟨p, hp, -, hseq, hopener, -⟩ | ⟨hnone, -, -⟩
    · rw [hseq, hopener]
      exact hi.newest pair p j hp hj
    · obtain ⟨hmem, rfl⟩ := newest_mem hj
      obtain ⟨p, hp⟩ := hi.known.2 j hmem
      rw [hnone] at hp
      cases hp
  present := by
    intro r hr p' hp' halive
    obtain ⟨p, hp⟩ := hi.known.1 r hr
    rcases hf.pairs r.pair p' hp' with ⟨q, hq, hw, -, -, -⟩ | ⟨hnone, -, -⟩
    · rw [hw]
      exact hi.present r hr q hq (hf.alive _ halive)
    · rw [hnone] at hp
      cases hp
  listed := by
    intro pair p' hp' writer hw
    rcases hf.pairs pair p' hp' with ⟨p, hp, hwriters, -, -, -⟩ | ⟨-, hempty, -⟩
    · rw [hwriters] at hw
      exact hi.listed pair p hp writer hw
    · rw [hempty] at hw
      cases hw
  locked := by
    intro pair p' held hp' hlock
    rcases hf.pairs pair p' hp' with ⟨p, hp, hwriters, hseq, hopener, hsame⟩ | ⟨-, -, hfree⟩
    · have hholds := hi.locked pair p held hp (hsame ▸ hlock)
      cases held with
      | offering opener todo =>
        simp only [RebindHistory.Holds, hwriters] at hholds ⊢
        exact hholds
      | registering seq writer target =>
        simp only [RebindHistory.Holds, hseq, hopener] at hholds ⊢
        exact hholds
    · rw [hfree] at hlock
      cases hlock
  offered := by
    intro r hr j hj honly halive hjoin hdead
    rcases hi.offered r hr j hj honly (hf.alive _ halive) hjoin hdead with
      hseq | hlast | ⟨p, todo, hp, hlock, hmem⟩
    · exact .inl hseq
    · right
      left
      rw [lastOffer, hf.offers]
      exact hlast
    · right
      right
      obtain ⟨p', hp'⟩ := hf.kept r.pair p hp
      rcases hf.pairs r.pair p' hp' with ⟨q, hq, -, -, -, hsame⟩ | ⟨hnone, -, -⟩
      · obtain rfl := Option.some.inj (hp.symm.trans hq)
        exact ⟨p', todo, hp', hsame.trans hlock, hmem⟩
      · rw [hnone] at hp
        cases hp

/-- A writer's last offer after one opener has been offered. -/
theorem lastOffer_cons {writer w : WriterId} {opener : OpenerId}
    (h : s'.offers = (w, opener) :: s.offers) :
    s'.lastOffer writer = if w = writer then some opener else s.lastOffer writer := by
  rw [lastOffer, h, List.find?_cons]
  by_cases hw : w = writer <;> simp [hw, lastOffer]

section Update

variable {pair : PairId} {p : SessionPair} {state : PairState} {lock : Option PairSection}

/-- Lookups after the update of one pair. -/
theorem known_update (hu : PairUpdate s s' pair p state lock) {id : PairId} {q : SessionPair}
    (hq : s.pairs.lookup id = some q) : ∃ q', s'.pairs.lookup id = some q' := by
  obtain ⟨handed, hafter⟩ := hu.after
  rw [hafter id]
  split
  · exact ⟨_, rfl⟩
  · exact ⟨q, hq⟩

/-- An update of a pair leaves the writers themselves alone. -/
theorem alive_update (hu : PairUpdate s s' pair p state lock) (writer : WriterId) :
    s'.writerAlive writer = s.writerAlive writer := by
  simp only [writerAlive, hu.dead]

/-- The pair that was updated, and the others. -/
theorem lookup_update (hu : PairUpdate s s' pair p state lock) {id : PairId} {q : SessionPair}
    (hq : s'.pairs.lookup id = some q) :
    (id = pair ∧ q.state = state ∧ q.lock = lock) ∨ (id ≠ pair ∧ s.pairs.lookup id = some q) := by
  obtain ⟨handed, hafter⟩ := hu.after
  rw [hafter] at hq
  split at hq
  · rename_i hid
    obtain rfl := Option.some.inj hq
    exact .inl ⟨hid, rfl, rfl⟩
  · rename_i hid
    exact .inr ⟨hid, hq⟩

/-- An offer that is still to be made in another pair is still to be made. -/
theorem offered_other (hu : PairUpdate s s' pair p state lock) {writer : WriterId} {id : PairId}
    {opener : OpenerId} (hid : id ≠ pair) (hlast : s'.lastOffer writer = s.lastOffer writer)
    (h : s.Offered writer id opener) : s'.Offered writer id opener := by
  obtain ⟨handed, hafter⟩ := hu.after
  rcases h with h | ⟨q, todo, hq, hlock, hmem⟩
  · exact .inl (hlast.trans h)
  · exact .inr ⟨q, todo, by rw [hafter, if_neg hid, hq], hlock, hmem⟩

/-- The pair that is updated can still be found. -/
theorem lookup_updated (hu : PairUpdate s s' pair p state lock) :
    ∃ q, s'.pairs.lookup pair = some q ∧ q.lock = lock := by
  obtain ⟨handed, hafter⟩ := hu.after
  exact ⟨_, (hafter pair).trans (if_pos rfl), rfl⟩

/-- Only the lock of a pair changes; `read` may have grown by a look at that pair. -/
theorem relock (hi : RebindInv s past) (hu : PairUpdate s s' pair p p.state lock)
    (hregistered : past'.registered = past.registered) (hjoined : past'.joined = past.joined)
    (hread : ∀ id, id ≠ pair → past'.deadAtRead id = past.deadAtRead id)
    (hlocked : ∀ held, lock = some held → past'.Holds pair p.state held)
    (hoffered : ∀ r ∈ past.registered, past.OnlyIn r.writer r.pair → ∀ j,
      past.newest r.pair = some j → s.Offered r.writer r.pair j.opener →
      s'.Offered r.writer r.pair j.opener) : RebindInv s' past' := by
  have hnewest : ∀ id, past'.newest id = past.newest id := by
    intro id
    rw [RebindHistory.newest, hjoined, RebindHistory.newest]
  refine ⟨⟨?_, ?_⟩, ?_, ?_, ?_, ?_, ?_⟩
  · intro r hr
    obtain ⟨q, hq⟩ := hi.known.1 r (hregistered ▸ hr)
    exact known_update hu hq
  · intro j hj
    obtain ⟨q, hq⟩ := hi.known.2 j (hjoined ▸ hj)
    exact known_update hu hq
  · intro id q j hq hj
    rw [hnewest] at hj
    rcases lookup_update hu hq with ⟨rfl, hstate, -⟩ | ⟨-, hq⟩
    · rw [hstate]
      exact hi.newest id p j hu.before hj
    · exact hi.newest id q j hq hj
  · intro r hr q hq halive
    rw [hregistered] at hr
    rw [alive_update hu] at halive
    rcases lookup_update hu hq with ⟨hid, hstate, -⟩ | ⟨-, hq⟩
    · rw [hstate]
      exact hi.present r hr p (hid ▸ hu.before) halive
    · exact hi.present r hr q hq halive
  · intro id q hq writer hw
    rw [hregistered]
    rcases lookup_update hu hq with ⟨rfl, hstate, -⟩ | ⟨-, hq⟩
    · rw [hstate] at hw
      exact hi.listed id p hu.before writer hw
    · exact hi.listed id q hq writer hw
  · intro id q held hq hlock
    rcases lookup_update hu hq with ⟨rfl, hstate, hnow⟩ | ⟨hid, hq⟩
    · rw [hstate]
      exact hlocked held (hnow.symm.trans hlock)
    · have hholds := hi.locked id q held hq hlock
      cases held <;> simp only [RebindHistory.Holds, hread id hid, hnewest] at hholds ⊢ <;>
        exact hholds
  · intro r hr j hj honly halive hjoin hdead
    rw [hregistered] at hr
    rw [hnewest] at hj
    rw [alive_update hu] at halive
    have honly : past.OnlyIn r.writer r.pair := fun r' hr' => honly r' (hregistered ▸ hr')
    exact (hi.offered r hr j hj honly halive hjoin hdead).imp_right
      (hoffered r hr honly j hj)

end Update

/-- A look at one pair is not one at another. -/
theorem deadAtRead_look (past : RebindHistory) (pair : PairId) (dead : List OpenerId)
    (id : PairId) :
    (past.look pair dead).deadAtRead id = if pair = id then dead else past.deadAtRead id := by
  rw [RebindHistory.deadAtRead, RebindHistory.look, List.find?_cons]
  by_cases hid : pair = id <;> simp [hid, RebindHistory.deadAtRead]

variable {pair : PairId} {p : SessionPair} {state : PairState}

/-- A newer session joins. -/
theorem joined (hi : RebindInv s past) {opener : OpenerId}
    (hu : PairUpdate s s' pair p state
      (if s.openerAlive opener then some (.offering opener state.writers) else none))
    (hwriters : state.writers = p.state.writers.filter s.writerAlive)
    (hnewest : state.newestSeq = p.state.nextSeq + 1 ∧ state.newestOpener = some opener)
    (hoffers : s'.offers = s.offers) :
    RebindInv s' { past.look pair s.deadOpeners with
      joined := ⟨pair, p.state.nextSeq + 1, opener, s.openerAlive opener⟩ :: past.joined } := by
  -- the pair's newest member is the one that joins now, the other pairs' are unchanged
  have hnew : ∀ id, RebindHistory.newest { past.look pair s.deadOpeners with
      joined := ⟨pair, p.state.nextSeq + 1, opener, s.openerAlive opener⟩ :: past.joined } id =
        if pair = id then some ⟨pair, p.state.nextSeq + 1, opener, s.openerAlive opener⟩
        else past.newest id := by
    intro id
    simp only [RebindHistory.newest, List.find?_cons]
    split <;> rename_i hid <;> simp_all
  have hlast : ∀ writer, s'.lastOffer writer = s.lastOffer writer := by
    intro writer
    rw [lastOffer, hoffers, lastOffer]
  refine ⟨⟨?_, ?_⟩, ?_, ?_, ?_, ?_, ?_⟩
  · intro r hr
    obtain ⟨q, hq⟩ := hi.known.1 r hr
    exact known_update hu hq
  · intro j hj
    rcases List.mem_cons.mp hj with rfl | hj
    · exact known_update hu hu.before
    · obtain ⟨q, hq⟩ := hi.known.2 j hj
      exact known_update hu hq
  · intro id q j hq hj
    rw [hnew] at hj
    rcases lookup_update hu hq with ⟨rfl, hstate, -⟩ | ⟨hid, hq⟩
    · rw [if_pos rfl] at hj
      obtain rfl := Option.some.inj hj
      rw [hstate]
      exact hnewest
    · rw [if_neg fun h => hid h.symm] at hj
      exact hi.newest id q j hq hj
  · intro r hr q hq halive
    rw [alive_update hu] at halive
    rcases lookup_update hu hq with ⟨hid, hstate, -⟩ | ⟨-, hq⟩
    · rw [hstate, hwriters]
      exact List.mem_filter.mpr ⟨hi.present r hr p (hid ▸ hu.before) halive, halive⟩
    · exact hi.present r hr q hq halive
  · intro id q hq writer hw
    rcases lookup_update hu hq with ⟨rfl, hstate, -⟩ | ⟨-, hq⟩
    · rw [hstate, hwriters] at hw
      exact hi.listed id p hu.before writer (List.mem_of_mem_filter hw)
    · exact hi.listed id q hq writer hw
  · intro id q held hq hlock
    rcases lookup_update hu hq with ⟨rfl, hstate, hnow⟩ | ⟨hid, hq⟩
    · rw [hnow] at hlock
      split at hlock
      · rename_i hup
        obtain rfl := Option.some.inj hlock
        refine ⟨⟨_, (hnew id).trans (if_pos rfl), rfl⟩, fun w hw => hstate ▸ hw, ?_⟩
        have hdead := deadAtRead_look past id s.deadOpeners id
        rw [if_pos rfl] at hdead
        rw [openerAlive, decide_eq_true_eq] at hup
        exact fun hmem => hup (hdead ▸ hmem)
      · cases hlock
    · have hholds := hi.locked id q held hq hlock
      have hdead := deadAtRead_look past pair s.deadOpeners id
      rw [if_neg fun h => hid h.symm] at hdead
      have hnew := hnew id
      rw [if_neg fun h => hid h.symm] at hnew
      cases held with
      | offering opener' todo =>
        exact ⟨by rw [hnew]; exact hholds.1, hholds.2.1, fun hmem => hholds.2.2 (hdead ▸ hmem)⟩
      | registering seq writer target =>
        refine ⟨fun opener' hmem => ?_, fun opener' hopener hseq hnot => ?_⟩
        · exact ⟨(hholds.1 opener' hmem).1, fun hd => (hholds.1 opener' hmem).2 (hdead ▸ hd)⟩
        · exact hholds.2 opener' hopener hseq fun hd => hnot (hdead ▸ hd)
  · intro r hr j hj honly halive hjoin hdead
    rw [alive_update hu] at halive
    rw [hnew] at hj
    split at hj
    · -- the writer waits in the list of the pair that is joined, and will be offered the opener
      rename_i hid
      obtain rfl := Option.some.inj hj
      have hmem : r.writer ∈ state.writers := by
        rw [hwriters]
        exact List.mem_filter.mpr ⟨hi.present r hr p (hid ▸ hu.before) halive, halive⟩
      obtain ⟨q, hq, hnow⟩ := lookup_updated hu
      replace hjoin : s.openerAlive opener = true := hjoin
      rw [if_pos hjoin] at hnow
      exact .inr (.inr ⟨q, state.writers, hid ▸ hq, hnow, hmem⟩)
    · -- the join is of another pair
      rename_i hid
      exact (hi.offered r hr j hj honly halive hjoin hdead).imp_right
        (offered_other hu (fun h => hid h.symm) (hlast r.writer))

/-- A join offers its opener to one writer. -/
theorem offers (hi : RebindInv s past) {opener : OpenerId} {writer : WriterId}
    {todo : List WriterId} (hu : PairUpdate s s' pair p p.state (some (.offering opener todo)))
    (hlock : p.lock = some (.offering opener (writer :: todo)))
    (hoffers : s'.offers = (writer, opener) :: s.offers) : RebindInv s' past := by
  obtain ⟨hnewest, htodo, hdead⟩ := hi.locked pair p _ hu.before hlock
  refine hi.relock hu rfl rfl (fun _ _ => rfl) ?_ ?_
  · intro held heq
    obtain rfl := Option.some.inj heq
    exact ⟨hnewest, fun w hw => htodo w (List.mem_cons_of_mem _ hw), hdead⟩
  · intro r hr honly j hj hoffered
    by_cases hpair : r.pair = pair
    · obtain ⟨q, hq, hnow⟩ := lookup_updated hu
      by_cases hwriter : writer = r.writer
      · obtain ⟨j', hj', rfl⟩ := hnewest
        rw [hpair, hj'] at hj
        obtain rfl := Option.some.inj hj
        exact .inl ((lastOffer_cons hoffers).trans (if_pos hwriter))
      · rcases hoffered with hlast | ⟨q', todo', hq', hlock', hmem⟩
        · exact .inl (((lastOffer_cons hoffers).trans (if_neg hwriter)).trans hlast)
        · rw [hpair, hu.before] at hq'
          obtain rfl := Option.some.inj hq'
          rw [hlock] at hlock'
          obtain ⟨rfl, rfl⟩ : opener = j.opener ∧ writer :: todo = todo' := by simpa using hlock'
          rcases List.mem_cons.mp hmem with hnow' | hmem
          · exact absurd hnow'.symm hwriter
          · exact .inr ⟨q, todo, hpair ▸ hq, hnow, hmem⟩
    · -- a writer of another pair is not on this pair's list
      have hne : writer ≠ r.writer := by
        rintro rfl
        obtain ⟨r', hr', hpair', hwriter⟩ :=
          hi.listed pair p hu.before _ (htodo _ List.mem_cons_self)
        exact hpair ((honly r' hr' hwriter).symm.trans hpair')
      exact offered_other hu hpair ((lastOffer_cons hoffers).trans (if_neg hne)) hoffered

/-- A join has made its offers. -/
theorem unlocks (hi : RebindInv s past) {opener : OpenerId}
    (hu : PairUpdate s s' pair p p.state none) (hlock : p.lock = some (.offering opener []))
    (hoffers : s'.offers = s.offers) : RebindInv s' past := by
  refine hi.relock hu rfl rfl (fun _ _ => rfl) ?_ ?_
  · intro held heq
    cases heq
  · intro r hr honly j hj hoffered
    have hlast : s'.lastOffer r.writer = s.lastOffer r.writer := by
      rw [lastOffer, hoffers, lastOffer]
    by_cases hpair : r.pair = pair
    · rcases hoffered with h | ⟨q, todo, hq, hlock', hmem⟩
      · exact .inl (hlast.trans h)
      · -- nobody is left to wait for an offer
        rw [hpair, hu.before] at hq
        obtain rfl := Option.some.inj hq
        rw [hlock] at hlock'
        obtain ⟨-, rfl⟩ : opener = j.opener ∧ [] = todo := by simpa using hlock'
        cases hmem
    · exact offered_other hu hpair hlast hoffered

/-- A stream looks for the opener its writer has to be sent to. -/
theorem looks (hi : RebindInv s past) {seq : Nat} {writer : WriterId}
    (hu : PairUpdate s s' pair p p.state
      (some (.registering seq writer (s.target p.state seq))))
    (hlock : p.lock = none) (hoffers : s'.offers = s.offers) :
    RebindInv s' (past.look pair s.deadOpeners) := by
  have hdead : (past.look pair s.deadOpeners).deadAtRead pair = s.deadOpeners := by
    rw [deadAtRead_look, if_pos rfl]
  refine hi.relock hu rfl rfl ?_ ?_ ?_
  · intro id hid
    rw [deadAtRead_look, if_neg fun h => hid h.symm]
  · intro held heq
    obtain rfl := Option.some.inj heq
    refine ⟨fun opener hopener => ?_, fun opener hopener hseq hnot => ?_⟩
    · rw [target] at hopener
      split at hopener
      · obtain ⟨hsome, hup⟩ := Option.filter_eq_some_iff.mp hopener
        rw [hdead]
        exact ⟨hsome, by simpa [openerAlive] using hup⟩
      · cases hopener
    · rw [hdead] at hnot
      rw [target, if_pos hseq, hopener, Option.filter_some, if_pos]
      simpa [openerAlive] using hnot
  · intro r hr honly j hj hoffered
    have hlast : s'.lastOffer r.writer = s.lastOffer r.writer := by
      rw [lastOffer, hoffers, lastOffer]
    by_cases hpair : r.pair = pair
    · rcases hoffered with h | ⟨q, todo, hq, hlock', hmem⟩
      · exact .inl (hlast.trans h)
      · rw [hpair, hu.before] at hq
        obtain rfl := Option.some.inj hq
        rw [hlock] at hlock'
        cases hlock'
    · exact offered_other hu hpair hlast hoffered

/-- A writer's last offer after at most one opener has been offered to `w`. -/
theorem lastOffer_target {target : Option OpenerId} {w writer : WriterId}
    (h : s'.offers = (target.map fun opener => (w, opener)).toList ++ s.offers) :
    s'.lastOffer writer = if w = writer ∧ target.isSome then target else s.lastOffer writer := by
  cases target with
  | none =>
    rw [lastOffer, h, lastOffer]
    simp
  | some opener =>
    rw [lastOffer_cons h]
    by_cases hw : w = writer <;> simp [hw]

/-- A stream registers its writer. -/
theorem registered (hi : RebindInv s past) {seq : Nat} {writer : WriterId}
    {target : Option OpenerId} (hu : PairUpdate s s' pair p state none)
    (hlock : p.lock = some (.registering seq writer target))
    (hwriters : state.writers = (s.purge p.state).writers ++ [writer])
    (hnewest : state.newestSeq = p.state.newestSeq ∧ state.newestOpener = p.state.newestOpener)
    (hoffers : s'.offers = (target.map fun opener => (writer, opener)).toList ++ s.offers) :
    RebindInv s' { past with
      registered := ⟨pair, writer, seq, past.deadAtRead pair⟩ :: past.registered } := by
  obtain ⟨htarget, hfound⟩ := hi.locked pair p _ hu.before hlock
  refine ⟨⟨?_, ?_⟩, ?_, ?_, ?_, ?_, ?_⟩
  · intro r hr
    rcases List.mem_cons.mp hr with rfl | hr
    · exact known_update hu hu.before
    · obtain ⟨q, hq⟩ := hi.known.1 r hr
      exact known_update hu hq
  · intro j hj
    obtain ⟨q, hq⟩ := hi.known.2 j hj
    exact known_update hu hq
  · intro id q j hq hj
    rcases lookup_update hu hq with ⟨rfl, hstate, -⟩ | ⟨-, hq⟩
    · rw [hstate, hnewest.1, hnewest.2]
      exact hi.newest id p j hu.before hj
    · exact hi.newest id q j hq hj
  · intro r hr q hq halive
    rw [alive_update hu] at halive
    rcases List.mem_cons.mp hr with rfl | hr
    · rcases lookup_update hu hq with ⟨-, hstate, -⟩ | ⟨hid, -⟩
      · simp [hstate, hwriters]
      · exact absurd rfl hid
    · rcases lookup_update hu hq with ⟨hid, hstate, -⟩ | ⟨-, hq⟩
      · rw [hstate, hwriters]
        exact List.mem_append_left _
          (mem_purge.2 (hi.present r hr p (hid ▸ hu.before) halive) halive)
      · exact hi.present r hr q hq halive
  · intro id q hq w hw
    rcases lookup_update hu hq with ⟨rfl, hstate, -⟩ | ⟨-, hq⟩
    · rw [hstate, hwriters] at hw
      rcases List.mem_append.mp hw with hw | hw
      · obtain ⟨r, hr, hpair, hwriter⟩ := hi.listed id p hu.before w (mem_purge.1 hw)
        exact ⟨r, List.mem_cons_of_mem _ hr, hpair, hwriter⟩
      · obtain rfl := List.mem_singleton.mp hw
        exact ⟨_, List.mem_cons_self, rfl, rfl⟩
    · obtain ⟨r, hr, hpair, hwriter⟩ := hi.listed id q hq w hw
      exact ⟨r, List.mem_cons_of_mem _ hr, hpair, hwriter⟩
  · intro id q held hq hlock'
    rcases lookup_update hu hq with ⟨-, -, hnow⟩ | ⟨-, hq⟩
    · rw [hnow] at hlock'
      cases hlock'
    · exact hi.locked id q held hq hlock'
  · intro r hr j hj honly halive hjoin hdead
    rw [alive_update hu] at halive
    by_cases hnow : writer = r.writer ∧ target.isSome = true
    · -- the writer is the one that registers now, and is offered the newest opener
      obtain ⟨opener, hopener⟩ := Option.isSome_iff_exists.mp hnow.2
      have hpair : pair = r.pair := honly _ List.mem_cons_self hnow.1
      obtain ⟨-, hnewestOpener⟩ := hi.newest pair p j hu.before (hpair ▸ hj)
      have hsame := (htarget opener hopener).1.symm.trans hnewestOpener
      exact .inr (.inl ((lastOffer_target hoffers).trans
        ((if_pos hnow).trans (hopener.trans hsame))))
    · have hlast := (lastOffer_target hoffers).trans (if_neg hnow)
      rcases List.mem_cons.mp hr with rfl | hr
      · -- it registers now and is offered nothing: on the newest member, or of a dead opener
        obtain ⟨hseq, hopener⟩ := hi.newest pair p j hu.before hj
        left
        by_contra hne
        have hstale : p.state.newestSeq ≠ seq := by
          rw [hseq]
          exact fun h => hne h.symm
        exact hnow ⟨rfl, by rw [hfound j.opener hopener hstale hdead]; rfl⟩
      · have honly' : past.OnlyIn r.writer r.pair :=
          fun r' hr' => honly r' (List.mem_cons_of_mem _ hr')
        refine (hi.offered r hr j hj honly' halive hjoin hdead).imp_right fun hoffered => ?_
        by_cases hpair : r.pair = pair
        · rcases hoffered with h | ⟨q, todo, hq, hlock', hmem⟩
          · exact .inl (hlast.trans h)
          · rw [hpair, hu.before] at hq
            obtain rfl := Option.some.inj hq
            rw [hlock] at hlock'
            cases hlock'
        · exact offered_other hu hpair hlast hoffered

/-- **Step lemma.** -/
theorem step (hi : RebindInv s past) {e : GroupEvent} (h : RebindStep s past e s' past') :
    RebindInv s' past' := by
  cases h with
  | quiet frame => exact hi.quiet frame
  | joined update writers newest offers => exact hi.joined update writers newest offers
  | offers update lock offers => exact hi.offers update lock offers
  | unlocks update lock offers => exact hi.unlocks update lock offers
  | looks update lock offers => exact hi.looks update lock offers
  | registered update lock writers newest offers =>
    exact hi.registered update lock writers newest offers

end RebindInv

/-! ## Whole runs -/

/-- The session groups with a history of registrations and joins. -/
def sessionGroupsWithHistory (bound : Nat) : Machine (SessionGroups × RebindHistory) GroupEvent :=
  (sessionGroups bound).withHistory .start RebindHistory.record

/-- **Run lemma.** -/
theorem rebindInv_of_reaches {bound : Nat} {x : SessionGroups × RebindHistory}
    (h : (sessionGroupsWithHistory bound).Reaches x) : RebindInv x.1 x.2 :=
  Machine.Reaches.invariant_withHistory (fun _ hs => groupInv_of_reaches hs)
    (RebindInv.init bound) (fun _ past _ _ hI hJ hst => hJ.step (.of_step hI past hst)) h

/-- Whatever a step offers was found alive by the call that offers it. -/
theorem RebindInv.offers_alive {s s' : SessionGroups} {past past' : RebindHistory} {e : GroupEvent}
    (hi : RebindInv s past) (h : RebindStep s past e s' past') :
    ∃ offered, s'.offers = offered ++ s.offers ∧
      ∀ offer ∈ offered, ∃ pair, e = .advance pair ∧ offer.2 ∉ past.deadAtRead pair := by
  cases h with
  | quiet frame => exact ⟨[], frame.offers, by simp⟩
  | joined update writers newest offers => exact ⟨[], offers, by simp⟩
  | unlocks update lock offers => exact ⟨[], offers, by simp⟩
  | looks update lock offers => exact ⟨[], offers, by simp⟩
  | @offers _ pair p opener writer todo update lock offers =>
    refine ⟨[(writer, opener)], offers, fun offer hoffer => ⟨pair, rfl, ?_⟩⟩
    obtain rfl := List.mem_singleton.mp hoffer
    exact (hi.locked pair p _ update.before lock).2.2
  | @registered _ pair p state seq writer target update lock writers newest offers =>
    refine ⟨_, offers, fun offer hoffer => ⟨pair, rfl, ?_⟩⟩
    simp only [Option.mem_toList, Option.map_eq_some_iff] at hoffer
    obtain ⟨opener, htarget, rfl⟩ := hoffer
    exact ((hi.locked pair p _ update.before lock).1 opener htarget).2

/-- **No server stream misses the newest session.** In every reachable state of the
groups, under every interleaving: every live registered writer is in its pair's list; if
the newest joiner's opener was alive when it joined and when the writer was registered,
the writer was registered by the newest member itself, or the opener last offered to it is
the newest joiner's, or the join that is still making its offers has this one to make; and
the next step, whatever it is, offers only openers that were alive when the call that makes
the offer looked. The writers of one group are those that registered with its pair only. -/
theorem no_stream_misses_newest_session (bound : Nat) (s : SessionGroups) (past : RebindHistory)
    (h : (sessionGroupsWithHistory bound).Reaches (s, past)) :
    (∀ r ∈ past.registered, s.writerAlive r.writer = true →
      ∃ p, s.pairs.lookup r.pair = some p ∧ r.writer ∈ p.state.writers) ∧
    (∀ r ∈ past.registered, past.OnlyIn r.writer r.pair → s.writerAlive r.writer = true →
      ∀ j, past.newest r.pair = some j → j.alive = true → j.opener ∉ r.dead →
        r.seq = j.seq ∨ s.Offered r.writer r.pair j.opener) ∧
    (∀ e s', s.step e = some s' → ∃ offered, s'.offers = offered ++ s.offers ∧
      ∀ offer ∈ offered, ∃ pair, e = .advance pair ∧ offer.2 ∉ past.deadAtRead pair) := by
  have hI : GroupInv s := groupInv_of_reaches (Machine.Reaches.forget h)
  have hi : RebindInv s past := rebindInv_of_reaches h
  refine ⟨?_, ?_, ?_⟩
  · intro r hr halive
    obtain ⟨p, hp⟩ := hi.known.1 r hr
    exact ⟨p, hp, hi.present r hr p hp halive⟩
  · intro r hr honly halive j hj hjoin hdead
    exact hi.offered r hr j hj honly halive hjoin hdead
  · intro e s' hst
    exact hi.offers_alive (RebindStep.of_step hI past hst)

/-- A stream of the first session waits while a second one joins; another stream is
opened on the first session afterwards. -/
def takeoverRun : List GroupEvent :=
  [.lookup 0 ⟨1⟩ 10, .commit 0, .advance 0, .lookup 1 ⟨1⟩ 11, .registerWriter 0 5, .advance 0,
    .commit 1, .advance 0, .advance 0, .registerWriter 0 6, .advance 0]

/-- Both streams were last offered the opener of the second session. -/
theorem both_streams_follow_the_second_session :
    ∃ s past, (sessionGroupsWithHistory 8).Reaches (s, past) ∧
      past.registered = [⟨0, 6, 1, []⟩, ⟨0, 5, 1, []⟩] ∧
      past.newest 0 = some ⟨0, 2, 11, true⟩ ∧
      s.lastOffer 5 = some 11 ∧ s.lastOffer 6 = some 11 := by
  have hrun : ∃ s past, (sessionGroupsWithHistory 8).Reaches (s, past) ∧
      past.registered = [⟨0, 6, 1, []⟩, ⟨0, 5, 1, []⟩] ∧
      past.newest 0 = some ⟨0, 2, 11, true⟩ ∧ s.deadWriters = [] ∧
      (s.pairs.lookup 0).map SessionPair.lock = some none :=
    ⟨_, _, ⟨takeoverRun, Machine.run_of_exec rfl⟩, rfl, rfl, rfl, rfl⟩
  obtain ⟨s, past, hs, hreg, hnew, hdead, hfree⟩ := hrun
  obtain ⟨-, hoffered, -⟩ := no_stream_misses_newest_session 8 s past hs
  have hlast : ∀ r ∈ past.registered, s.lastOffer r.writer = some 11 := by
    intro r hr
    have hpair : r.pair = 0 ∧ r.seq = 1 ∧ r.dead = [] := by
      rw [hreg] at hr
      simp only [List.mem_cons, List.not_mem_nil, or_false] at hr
      rcases hr with rfl | rfl <;> exact ⟨rfl, rfl, rfl⟩
    have honly : past.OnlyIn r.writer r.pair := by
      intro r' hr' _
      rw [hreg] at hr'
      simp only [List.mem_cons, List.not_mem_nil, or_false] at hr'
      rcases hr' with rfl | rfl <;> exact hpair.1.symm
    have halive : s.writerAlive r.writer = true := by simp [writerAlive, hdead]
    rcases hoffered r hr honly halive ⟨0, 2, 11, true⟩ (by rw [hpair.1, hnew]) rfl
      (by simp [hpair.2.2]) with hseq | hoffer | ⟨p, todo, hp, hlock, -⟩
    · rw [hpair.2.1] at hseq
      cases hseq
    · exact hoffer
    · rw [hpair.1] at hp
      rw [hp, Option.map_some, hlock] at hfree
      cases hfree
  exact ⟨s, past, hs, hreg, hnew, hlast ⟨0, 5, 1, []⟩ (by simp [hreg]),
    hlast ⟨0, 6, 1, []⟩ (by simp [hreg])⟩

/-- The opener of the second session dies after `join` has found it alive. -/
def lateDeathRun : List GroupEvent :=
  [.lookup 0 ⟨1⟩ 10, .commit 0, .advance 0, .registerWriter 0 5, .advance 0, .lookup 1 ⟨1⟩ 11,
    .commit 1, .openerDies 11]

/-- **An opener may die before its offer.** `join` looks once and offers afterwards, so a writer
can be offered an opener that is dead at that moment. -/
theorem opener_dies_before_its_offer :
    ∃ s s', (sessionGroups 8).Reaches s ∧ s.step (.advance 0) = some s' ∧
      s'.offers = (5, 11) :: s.offers ∧ s.openerAlive 11 = false :=
  ⟨_, _, ⟨lateDeathRun, Machine.run_of_exec rfl⟩, rfl, rfl, rfl⟩

end RtpMux

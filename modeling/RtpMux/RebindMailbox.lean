import RtpMux.WriteStep

/-!
# The rebind mailbox (`RebindSlot`, `RebindHandle::rebind`)

A rebind request is two accesses to two cells: the opener is stored in `latest`, and a token
is sent on a wake channel of capacity one, where a full channel counts as success. The
background writer receives a token and then takes `latest`. Any number of threads rebind at
the same time, so stores, sends, receives and takes interleave freely.

No request is lost, because every store is followed by a send of its own: while an opener is
in the mailbox and the writer still receives, there is a token, or a call that has yet to send
one, or the writer is about to look (`MailboxInv.delivered`). Once the writer has dropped its
receivers nobody looks any more, and a late store stays in the mailbox.

`SlotEvent`s are the history of the mailbox. From a state with a token, the writer takes the
mailbox within five steps of its own, whatever the other parties do, unless it leaves its
loop (`takes_of_run`).
-/

namespace RtpMux

open WriteSystem

/-- What happened to the mailbox. -/
inductive SlotEvent where
  | stored (opener : OpenerId)
  | taken (opener : OpenerId)
  deriving DecidableEq, Repr

/-- The event is a take. -/
def SlotEvent.isTake : SlotEvent → Bool
  | taken _ => true
  | stored _ => false

/-- What event `e`, taken in `s`, adds to the mailbox's history, newest first. -/
def recordSlot (s : WriteSystem) (e : WriteEvent) (past : List SlotEvent) : List SlotEvent :=
  match e with
  | .rebindStore opener => .stored opener :: past
  | .background =>
    match s.background, s.latest with
    | .takeLatest, some opener => .taken opener :: past
    | _, _ => past
  | _ => past

/-- The write system with the history of its mailbox. -/
def writeSystemWithMailbox : Machine (WriteSystem × List SlotEvent) WriteEvent :=
  writeSystem.withHistory [] recordSlot

/-- The background writer has not left its loop. -/
def BackgroundPc.inLoop : BackgroundPc → Bool
  | pollWake => true
  | takeLatest => true
  | rebinding _ => true
  | pollCommands => true
  | writing _ => true
  | flushing _ => true
  | replying _ _ stop => !stop
  | _ => false

/-- What a call of `rebind` returns in this step, if it returns. -/
def WriteSystem.rebindReturns (s : WriteSystem) : WriteEvent → Option Bool
  | .rebindUpgrade => if s.wakeClosed then some false else none
  | .rebindSend => some s.background.receiving
  | _ => none

/-! ## The invariant -/

/-- In a mailbox's history, what is taken is what was stored last. -/
def SlotHistory : List SlotEvent → Prop
  | [] => True
  | .stored _ :: past => SlotHistory past
  | .taken opener :: past => past.head? = some (.stored opener) ∧ SlotHistory past

/-- The invariant of the mailbox. -/
structure MailboxInv (s : WriteSystem) (past : List SlotEvent) : Prop where
  /-- an opener in the mailbox will be seen -/
  delivered : s.latest.isSome = true → s.background.receiving = true →
    s.wake = true ∨ 0 < s.rebinds ∨ s.background = .takeLatest
  /-- the writer stops listening only when nobody can rebind any more -/
  closed : s.rebindOpen = false → s.wakeClosed = true ∧ s.latest = none
  /-- the mailbox holds the opener stored last, unless it was taken -/
  slot : ∀ opener, s.latest = some opener ↔ past.head? = some (.stored opener)
  history : SlotHistory past

/-- The mailbox starts empty. -/
theorem mailboxInv_init : MailboxInv WriteSystem.init [] where
  delivered := nofun
  closed := nofun
  slot := by simp [WriteSystem.init]
  history := trivial

/-- Steps that touch neither the mailbox nor the wake channel, and let the writer go on
outside `takeLatest`. -/
theorem MailboxInv.frame {s s' : WriteSystem} {past : List SlotEvent} (hi : MailboxInv s past)
    (hlatest : s'.latest = s.latest) (hwake : s'.wake = s.wake) (hrebinds : s'.rebinds = s.rebinds)
    (hupgraded : s'.upgraded = s.upgraded) (hopen : s'.rebindOpen = s.rebindOpen)
    (hdropped : s.dropped = true → s'.dropped = true)
    (hpc : s'.background.receiving = true → s.background.receiving = true)
    (htake : s.background = .takeLatest → s'.background = .takeLatest) : MailboxInv s' past where
  delivered := by
    rw [hlatest, hwake, hrebinds]
    intro hsome hrec
    rcases hi.delivered hsome (hpc hrec) with h | h | h
    · exact .inl h
    · exact .inr (.inl h)
    · exact .inr (.inr (htake h))
  closed := by
    rw [hopen, hlatest]
    intro hclosed
    obtain ⟨hwc, hnone⟩ := hi.closed hclosed
    simp only [wakeClosed, Bool.and_eq_true, decide_eq_true_eq] at hwc ⊢
    rw [hupgraded, hrebinds]
    exact ⟨⟨⟨hdropped hwc.1.1, hwc.1.2⟩, hwc.2⟩, hnone⟩
  slot := by
    rw [hlatest]
    exact hi.slot
  history := hi.history

/-- The receivers are dropped. -/
theorem MailboxInv.dropReceivers {s : WriteSystem} {past : List SlotEvent}
    (hi : MailboxInv s past) : MailboxInv s.dropReceivers past :=
  ⟨fun _ hrec => (nomatch hrec), hi.closed, hi.slot, hi.history⟩

/-- A step of the background writer away from the mailbox: only its position changes. -/
theorem MailboxInv.writerMoves {s s' : WriteSystem} {past : List SlotEvent}
    (hi : MailboxInv s past) (hsame : s'.latest = s.latest ∧ s'.wake = s.wake ∧
      s'.rebinds = s.rebinds ∧ s'.upgraded = s.upgraded ∧ s'.rebindOpen = s.rebindOpen ∧
      s'.dropped = s.dropped)
    (hrec : s.background.receiving = true) (htake : s.background ≠ .takeLatest) :
    MailboxInv s' past := by
  obtain ⟨hlatest, hwake, hrebinds, hupgraded, hopen, hdropped⟩ := hsame
  exact hi.frame hlatest hwake hrebinds hupgraded hopen (fun h => hdropped.trans h)
    (fun _ => hrec) (fun h => absurd h htake)

/-- **Step lemma**, for the background writer. -/
theorem MailboxInv.writer {s s' : WriteSystem} {e : WriteEvent} {past : List SlotEvent}
    (hi : MailboxInv s past) (h : WriterStep s e s') (hlook : s.background ≠ .takeLatest) :
    MailboxInv s' past := by
  -- what is needed of a step that leaves the mailbox alone
  have hmove : ∀ {pc : BackgroundPc}, s.background = pc → pc.receiving = true →
      (s'.latest = s.latest ∧ s'.wake = s.wake ∧ s'.rebinds = s.rebinds ∧
        s'.upgraded = s.upgraded ∧ s'.rebindOpen = s.rebindOpen ∧ s'.dropped = s.dropped) →
      MailboxInv s' past :=
    fun hpc hrec hsame => hi.writerMoves hsame (by rw [hpc, hrec]) hlook
  cases h with
  | woken pc isOpen wake =>
    exact ⟨fun _ _ => .inr (.inr rfl), hi.closed, hi.slot, hi.history⟩
  | wakeEnds pc isOpen wake closed =>
    -- nobody is between store and send, so the mailbox is empty
    have hnone : s.latest = none := by
      by_contra hsome
      have hrebinds : s.rebinds = 0 := by
        simp only [wakeClosed, Bool.and_eq_true, decide_eq_true_eq] at closed
        exact closed.2
      rcases hi.delivered (Option.isSome_iff_ne_none.mpr hsome) (by rw [pc]; rfl) with h | h | h
      · rw [wake] at h
        cases h
      · omega
      · exact hlook h
    exact ⟨by simp [resume, hnone], fun _ => ⟨closed, hnone⟩, hi.slot, hi.history⟩
  | noWake pc quiet => exact hmove pc rfl ⟨rfl, rfl, rfl, rfl, rfl, rfl⟩
  | take pc latest => exact absurd pc hlook
  | takeNothing pc latest => exact absurd pc hlook
  | data pc head => exact hmove pc rfl ⟨rfl, rfl, rfl, rfl, rfl, rfl⟩
  | flush pc head => exact hmove pc rfl ⟨rfl, rfl, rfl, rfl, rfl, rfl⟩
  | shutdown pc head => exact hmove pc rfl ⟨rfl, rfl, rfl, rfl, rfl, rfl⟩
  | channelEnds pc empty gone => exact hmove pc rfl ⟨rfl, rfl, rfl, rfl, rfl, rfl⟩
  | noCommand pc empty => exact hmove pc rfl ⟨rfl, rfl, rfl, rfl, rfl, rfl⟩
  | rebound pc => exact hmove pc rfl ⟨rfl, rfl, rfl, rfl, rfl, rfl⟩
  | rebindFails pc => exact hmove pc rfl ⟨rfl, rfl, rfl, rfl, rfl, rfl⟩
  | wrote pc => exact hmove pc rfl ⟨rfl, rfl, rfl, rfl, rfl, rfl⟩
  | writeFails pc => exact hmove pc rfl ⟨rfl, rfl, rfl, rfl, rfl, rfl⟩
  | flushed pc => exact hmove pc rfl ⟨rfl, rfl, rfl, rfl, rfl, rfl⟩
  | flushFails pc => exact hmove pc rfl ⟨rfl, rfl, rfl, rfl, rfl, rfl⟩
  | finalized pc event =>
    rename_i reply result
    cases result <;> exact hmove pc rfl ⟨rfl, rfl, rfl, rfl, rfl, rfl⟩
  | finalizedEnd pc event => exact hmove pc rfl ⟨rfl, rfl, rfl, rfl, rfl, rfl⟩
  | reply pc => exact hmove pc rfl ⟨rfl, rfl, rfl, rfl, rfl, rfl⟩
  | leave pc => exact hmove pc rfl ⟨rfl, rfl, rfl, rfl, rfl, rfl⟩
  | returns pc => exact hi.dropReceivers
  | ends pc => exact ⟨fun _ hrec => (nomatch hrec), hi.closed, hi.slot, hi.history⟩

/-- A step of the writer elsewhere does not touch the mailbox. -/
theorem recordSlot_writer {s s' : WriteSystem} {e : WriteEvent} {past : List SlotEvent}
    (h : WriterStep s e s') (hlook : s.background ≠ .takeLatest) : recordSlot s e past = past := by
  cases e with
  | rebindStore opener =>
    cases h with
    | finalized pc event => rcases event with h | ⟨h, -⟩ <;> cases h
    | finalizedEnd pc event => rcases event with ⟨_, h⟩ | h <;> cases h
  | background =>
    simp only [recordSlot]
    split
    · rename_i hpc _
      exact absurd hpc hlook
    · rfl
  | _ => rfl

/-- **Step lemma.** -/
theorem MailboxInv.step {s s' : WriteSystem} {past : List SlotEvent} {e : WriteEvent}
    (hi : MailboxInv s past) (h : WriteStep s e s') : MailboxInv s' (recordSlot s e past) := by
  cases h with
  | begins entry idle kept =>
    have hquiet : recordSlot s e past = past := by
      cases e <;> first | rfl | cases entry
    rw [hquiet]
    exact hi.frame rfl rfl rfl rfl rfl id id id
  | access h =>
    obtain ⟨half, poll, queue, replies, nextReply, log, rfl⟩ := advance_frame h
    exact hi.frame rfl rfl rfl rfl rfl id id id
  | drop idle kept => exact hi.frame rfl rfl rfl rfl rfl (fun _ => rfl) id id
  | rebindRefused closed => exact hi
  | rebindUpgrades isOpen =>
    refine ⟨hi.delivered, fun hclosed => ?_, hi.slot, hi.history⟩
    rw [(hi.closed hclosed).1] at isOpen
    cases isOpen
  | rebindStores call =>
    refine ⟨fun _ _ => .inr (.inl (Nat.succ_pos _)), fun hclosed => ?_, ?_, hi.history⟩
    · obtain ⟨hwc, -⟩ := hi.closed hclosed
      simp only [wakeClosed, Bool.and_eq_true, decide_eq_true_eq] at hwc
      omega
    · simp [recordSlot]
  | rebindSends call =>
    refine ⟨fun _ hrec => .inl (by simp [show s.background.receiving = true from hrec]), ?_,
      hi.slot, hi.history⟩
    intro hclosed
    obtain ⟨hwc, -⟩ := hi.closed hclosed
    simp only [wakeClosed, Bool.and_eq_true, decide_eq_true_eq] at hwc
    omega
  | writer h =>
    by_cases hlook : s.background = .takeLatest
    · obtain ⟨rfl, ⟨opener, hlatest, rfl⟩ | ⟨hlatest, rfl⟩⟩ := h.of_takeLatest hlook
      · have hrecord : recordSlot s .background past = .taken opener :: past := by
          simp only [recordSlot, hlook, hlatest]
        rw [hrecord]
        exact ⟨nofun, fun hclosed => ⟨(hi.closed hclosed).1, rfl⟩, by simp [resume],
          (hi.slot opener).mp hlatest, hi.history⟩
      · have hrecord : recordSlot s .background past = past := by
          simp only [recordSlot, hlook, hlatest]
        rw [hrecord]
        exact ⟨by simp [resume, hlatest], hi.closed, hi.slot, hi.history⟩
    · rw [recordSlot_writer h hlook]
      exact hi.writer h hlook
  | abort gone running => exact hi.dropReceivers

/-- **Run lemma.** -/
theorem mailboxInv_of_reaches {x : WriteSystem × List SlotEvent}
    (h : writeSystemWithMailbox.Reaches x) : MailboxInv x.1 x.2 :=
  Machine.Reaches.invariant_withHistory (M := writeSystem) (I := fun _ => True)
    (fun _ _ => trivial) mailboxInv_init (fun _ _ _ _ _ hi hst => hi.step (.of_step hst)) h

/-! ## The writer gets there -/

/-- The event is a step of the background writer. -/
def WriteEvent.isWriter : WriteEvent → Bool
  | background => true
  | writerResult _ => true
  | finalizeTimeout => true
  | _ => false

/-- How many steps the writer is from having taken the mailbox, given a token. -/
def BackgroundPc.toTake : BackgroundPc → Nat
  | takeLatest => 1
  | pollWake => 2
  | rebinding _ => 3
  | writing _ => 3
  | replying _ _ _ => 3
  | flushing _ => 4
  | pollCommands => 5
  | _ => 0

/-- An opener is in the mailbox, and the writer in its loop has been told. -/
structure Told (s : WriteSystem) : Prop where
  stored : s.latest.isSome = true
  token : s.wake = true ∨ s.background = .takeLatest
  inLoop : s.background.inLoop = true

/-- Who has left the loop does not come back. -/
theorem WriterStep.inLoop {s s' : WriteSystem} {e : WriteEvent} (h : WriterStep s e s')
    (hloop : s'.background.inLoop = true) : s.background.inLoop = true := by
  cases h with
  | reply pc =>
    rename_i reply result stop
    rw [pc]
    cases stop with
    | false => rfl
    | true => cases hloop
  | finalized pc event => cases hloop
  | finalizedEnd pc event => cases hloop
  | leave pc => cases hloop
  | returns pc => cases hloop
  | ends pc => cases hloop
  | _ => simp_all [BackgroundPc.inLoop]

/-- A background writer that is in its loop was there before. -/
theorem WriteStep.inLoop {s s' : WriteSystem} {e : WriteEvent} (h : WriteStep s e s')
    (hloop : s'.background.inLoop = true) : s.background.inLoop = true := by
  cases h with
  | access h =>
    obtain ⟨half, poll, queue, replies, nextReply, log, rfl⟩ := advance_frame h
    exact hloop
  | writer h => exact h.inLoop hloop
  | abort gone running => cases hloop
  | _ => exact hloop

/-- A step of the writer brings it nearer, until it takes the mailbox. -/
theorem Told.writer {s s' : WriteSystem} {e : WriteEvent} (ht : Told s)
    (hopen : s.rebindOpen = true) (h : WriterStep s e s') (hloop : s'.background.inLoop = true)
    (hlook : s.background ≠ .takeLatest) :
    Told s' ∧ s'.background.toTake + 1 ≤ s.background.toTake := by
  have hwake : s.wake = true := ht.token.resolve_right hlook
  cases h with
  | woken pc isOpen wake => exact ⟨⟨ht.stored, .inr rfl, rfl⟩, by rw [pc]; exact le_rfl⟩
  | wakeEnds pc isOpen wake closed =>
    rw [hwake] at wake
    cases wake
  | noWake pc quiet =>
    rcases quiet with hclosed | ⟨hno, -⟩
    · rw [hopen] at hclosed
      cases hclosed
    · rw [hwake] at hno
      cases hno
  | take pc latest => exact absurd pc hlook
  | takeNothing pc latest => exact absurd pc hlook
  | data pc head =>
    exact ⟨⟨ht.stored, .inl hwake, rfl⟩, by rw [pc]; simp [resume, BackgroundPc.toTake]⟩
  | flush pc head =>
    exact ⟨⟨ht.stored, .inl hwake, rfl⟩, by rw [pc]; simp [resume, BackgroundPc.toTake]⟩
  | shutdown pc head => cases hloop
  | channelEnds pc empty gone => cases hloop
  | noCommand pc empty =>
    exact ⟨⟨ht.stored, .inl hwake, rfl⟩, by rw [pc]; simp [resume, BackgroundPc.toTake]⟩
  | rebound pc =>
    exact ⟨⟨ht.stored, .inl hwake, rfl⟩, by rw [pc]; simp [resume, BackgroundPc.toTake]⟩
  | rebindFails pc => cases hloop
  | wrote pc => exact ⟨⟨ht.stored, .inl hwake, rfl⟩, by rw [pc]; simp [resume, BackgroundPc.toTake]⟩
  | writeFails pc => cases hloop
  | flushed pc => exact ⟨⟨ht.stored, .inl hwake, rfl⟩, by rw [pc]; exact le_rfl⟩
  | flushFails pc => cases hloop
  | finalized pc event => cases hloop
  | finalizedEnd pc event => cases hloop
  | reply pc =>
    rename_i reply result stop
    cases stop with
    | false => exact ⟨⟨ht.stored, .inl hwake, rfl⟩, by rw [pc]; exact le_rfl⟩
    | true => cases hloop
  | leave pc => cases hloop
  | returns pc => cases hloop
  | ends pc => cases hloop

/-- The history of the mailbox only grows. -/
theorem takes_le (s : WriteSystem) (e : WriteEvent) (past : List SlotEvent) :
    past.countP SlotEvent.isTake ≤ (recordSlot s e past).countP SlotEvent.isTake := by
  have hcons : ∀ ev : SlotEvent, past.countP SlotEvent.isTake ≤
      (ev :: past).countP SlotEvent.isTake := by
    intro ev
    rw [List.countP_cons]
    exact Nat.le_add_right _ _
  simp only [recordSlot]
  split
  · exact hcons _
  · split
    · exact hcons _
    · exact le_rfl
  · exact le_rfl

/-- One step from a told state: the mailbox is taken, or the writer has left its loop, or it
is still told and, if the step was its own, nearer. -/
theorem Told.step {s s' : WriteSystem} {e : WriteEvent} (ht : Told s) (past : List SlotEvent)
    (hopen : s.rebindOpen = true) (h : WriteStep s e s') (hloop : s'.background.inLoop = true) :
    past.countP SlotEvent.isTake < (recordSlot s e past).countP SlotEvent.isTake ∨
    Told s' ∧ s'.background.toTake + (if e.isWriter then 1 else 0) ≤ s.background.toTake := by
  cases h with
  | begins entry idle kept =>
    right
    refine ⟨⟨ht.stored, ht.token, ht.inLoop⟩, ?_⟩
    cases e <;> first | exact le_rfl | cases entry
  | access h =>
    obtain ⟨half, poll, queue, replies, nextReply, log, rfl⟩ := advance_frame h
    exact .inr ⟨⟨ht.stored, ht.token, ht.inLoop⟩, le_rfl⟩
  | drop idle kept => exact .inr ⟨⟨ht.stored, ht.token, ht.inLoop⟩, le_rfl⟩
  | rebindRefused closed => exact .inr ⟨ht, le_rfl⟩
  | rebindUpgrades isOpen => exact .inr ⟨⟨ht.stored, ht.token, ht.inLoop⟩, le_rfl⟩
  | rebindStores call => exact .inr ⟨⟨rfl, ht.token, ht.inLoop⟩, le_rfl⟩
  | rebindSends call =>
    refine .inr ⟨⟨ht.stored, ?_, ht.inLoop⟩, le_rfl⟩
    rcases ht.token with hwake | hlook
    · exact .inl (by simp [hwake])
    · exact .inr hlook
  | writer h =>
    by_cases hlook : s.background = .takeLatest
    · obtain ⟨rfl, -⟩ := h.of_takeLatest hlook
      obtain ⟨opener, hlatest⟩ := Option.isSome_iff_exists.mp ht.stored
      left
      have hrecord : recordSlot s .background past = .taken opener :: past := by
        simp only [recordSlot, hlook, hlatest]
      rw [hrecord, List.countP_cons_of_pos rfl]
      exact Nat.lt_succ_self _
    · obtain ⟨ht', hle⟩ := ht.writer hopen h hloop hlook
      refine .inr ⟨ht', ?_⟩
      split
      · exact hle
      · omega
  | abort gone running => cases hloop

/-- Runs of the write system with the history of its mailbox. -/
abbrev MailboxRun (x : WriteSystem × List SlotEvent) (es : List WriteEvent)
    (x' : WriteSystem × List SlotEvent) : Prop :=
  writeSystemWithMailbox.Run (fun _ _ => True) x es x'

/-- A run that ends in the loop was in the loop all along. -/
theorem MailboxRun.inLoop {x x' : WriteSystem × List SlotEvent} {es : List WriteEvent}
    (h : MailboxRun x es x') (hloop : x'.1.background.inLoop = true) :
    x.1.background.inLoop = true := by
  induction h with
  | nil x => exact hloop
  | cons _ hst _ ih =>
    obtain ⟨hst, -⟩ := Machine.withHistory_step hst
    exact (WriteStep.of_step hst).inLoop (ih hloop)

/-- Along a run the takes only grow in number. -/
theorem MailboxRun.takes_le {x x' : WriteSystem × List SlotEvent} {es : List WriteEvent}
    (h : MailboxRun x es x') :
    x.2.countP SlotEvent.isTake ≤ x'.2.countP SlotEvent.isTake := by
  induction h with
  | nil x => exact le_rfl
  | cons _ hst _ ih =>
    obtain ⟨-, hpast⟩ := Machine.withHistory_step hst
    rw [hpast] at ih
    exact (RtpMux.takes_le _ _ _).trans ih

/-- **Run lemma.** From a told state every step of the writer counts, until it takes the
mailbox or leaves its loop. -/
theorem Told.run {x x' : WriteSystem × List SlotEvent} {es : List WriteEvent}
    (h : MailboxRun x es x') (hi : MailboxInv x.1 x.2) (ht : Told x.1)
    (hloop : x'.1.background.inLoop = true) :
    x.2.countP SlotEvent.isTake < x'.2.countP SlotEvent.isTake ∨
    es.countP WriteEvent.isWriter + x'.1.background.toTake ≤ x.1.background.toTake := by
  induction h with
  | nil x => exact .inr (by simp)
  | @cons x y z e es _ hst hrun ih =>
    obtain ⟨hst, hpast⟩ := Machine.withHistory_step hst
    have hstep := WriteStep.of_step hst
    have hopen : x.1.rebindOpen = true := by
      by_contra hclosed
      have hstored := ht.stored
      rw [(hi.closed (by simpa using hclosed)).2] at hstored
      cases hstored
    have hinv : MailboxInv y.1 y.2 := by
      rw [hpast]
      exact hi.step hstep
    have hmid : y.1.background.inLoop = true := MailboxRun.inLoop hrun hloop
    rcases ht.step x.2 hopen hstep hmid with htake | ⟨ht', hle⟩
    · left
      rw [← hpast] at htake
      exact lt_of_lt_of_le htake (MailboxRun.takes_le hrun)
    · rcases ih hinv ht' hloop with htake | hcount
      · left
        have hgrow := RtpMux.takes_le x.1 e x.2
        rw [← hpast] at hgrow
        exact lt_of_le_of_lt hgrow htake
      · right
        rw [List.countP_cons]
        omega

/-- In its loop the writer is at most five steps from a take. -/
theorem BackgroundPc.toTake_pos {pc : BackgroundPc} (h : pc.inLoop = true) :
    0 < pc.toTake ∧ pc.toTake ≤ 5 := by
  cases pc <;> simp_all [inLoop, toTake]

/-- Five steps of the writer are enough, whatever happens in between. -/
theorem takes_of_run {x x' : WriteSystem × List SlotEvent} {es : List WriteEvent}
    (h : MailboxRun x es x') (hi : MailboxInv x.1 x.2) (hstored : x.1.latest.isSome = true)
    (htoken : x.1.wake = true ∨ x.1.background = .takeLatest)
    (hsteps : 5 ≤ es.countP WriteEvent.isWriter) (hloop : x'.1.background.inLoop = true) :
    x.2.countP SlotEvent.isTake < x'.2.countP SlotEvent.isTake := by
  have hinLoop := MailboxRun.inLoop h hloop
  rcases Told.run h hi ⟨hstored, htoken, hinLoop⟩ hloop with htake | hcount
  · exact htake
  · have := BackgroundPc.toTake_pos hloop
    have := BackgroundPc.toTake_pos hinLoop
    omega

/-- The same when the run starts with the send of a call that was about to make it. -/
theorem takes_of_send {x x' : WriteSystem × List SlotEvent} {es : List WriteEvent}
    (h : MailboxRun x (.rebindSend :: es) x') (hi : MailboxInv x.1 x.2)
    (hstored : x.1.latest.isSome = true) (hsteps : 5 ≤ es.countP WriteEvent.isWriter)
    (hloop : x'.1.background.inLoop = true) :
    x.2.countP SlotEvent.isTake < x'.2.countP SlotEvent.isTake := by
  have hinLoop := MailboxRun.inLoop h hloop
  cases h with
  | @cons _ y _ _ _ _ hst hrun =>
    obtain ⟨hst, hpast⟩ := Machine.withHistory_step hst
    obtain ⟨s, past⟩ := x
    obtain ⟨s', past'⟩ := y
    cases hpast
    have hstep : WriteStep s .rebindSend s' := .of_step hst
    have hinv : MailboxInv s' (recordSlot s .rebindSend past) := hi.step hstep
    cases hstep with
    | begins entry idle kept => cases entry
    | rebindSends call =>
      have hrec : s.background.receiving = true := by
        cases hpc : s.background <;> simp_all [BackgroundPc.inLoop, BackgroundPc.receiving]
      have htoken : (s.wake || s.background.receiving) = true := by rw [hrec, Bool.or_true]
      have htakes := takes_of_run hrun hinv hstored (.inl htoken) hsteps hloop
      exact htakes
    | writer h =>
      cases h with
      | finalized pc event => rcases event with h | ⟨h, -⟩ <;> cases h
      | finalizedEnd pc event => rcases event with ⟨_, h⟩ | h <;> cases h

/-! ## No rebind is lost -/

/-- In a history of the mailbox, a take is directly preceded by the store of what it takes. -/
theorem SlotHistory.taken {past : List SlotEvent} (h : SlotHistory past) {later earlier}
    {opener : OpenerId} (hsplit : past = later ++ .taken opener :: earlier) :
    earlier.head? = some (.stored opener) := by
  induction later generalizing past with
  | nil =>
    subst hsplit
    exact h.1
  | cons ev later ih =>
    subst hsplit
    cases ev with
    | stored _ =>
      have hrest : SlotHistory (later ++ .taken opener :: earlier) := h
      exact ih hrest rfl
    | taken _ =>
      have hrest : SlotHistory (later ++ .taken opener :: earlier) := h.2
      exact ih hrest rfl

/-- Whatever was stored is still in the mailbox, or was taken, or was replaced by a later
store. -/
theorem MailboxInv.stored {s : WriteSystem} {past later earlier : List SlotEvent}
    {opener : OpenerId} (hi : MailboxInv s past)
    (hsplit : past = later ++ .stored opener :: earlier) :
    (later = [] ∧ s.latest = some opener) ∨ (∃ rest, later = rest ++ [SlotEvent.taken opener]) ∨
      ∃ newer rest, later = rest ++ [SlotEvent.stored newer] := by
  rcases List.eq_nil_or_concat later with rfl | ⟨rest, ev, rfl⟩
  · left
    refine ⟨rfl, (hi.slot opener).mpr ?_⟩
    rw [hsplit]
    rfl
  · right
    rw [List.concat_eq_append] at hsplit ⊢
    cases ev with
    | stored newer => exact .inr ⟨newer, rest, rfl⟩
    | taken taken =>
      left
      rw [List.append_assoc] at hsplit
      have hhead := hi.history.taken hsplit
      cases hhead
      exact ⟨rest, rfl⟩

/-- **A rebind is never lost.** In every reachable state, under every interleaving of any
number of calls of `rebind` with the background writer:

* an opener in the mailbox has a token in the wake channel, or a call between its store and
  its `try_send`, or a writer that is about to take it, or the writer has dropped its
  receivers;
* what the writer takes is the opener stored last, and a stored opener is in the mailbox
  until it is taken or replaced by a later store;
* as long as the writer keeps running, five steps of its own after the token is there are
  enough for it to take the mailbox;
* `rebind` returns `false` only when the half is gone or its writer task has ended. -/
theorem rebind_never_lost (s : WriteSystem) (past : List SlotEvent)
    (h : writeSystemWithMailbox.Reaches (s, past)) :
    (s.latest.isSome = true → s.wake = true ∨ 0 < s.rebinds ∨ s.background = .takeLatest ∨
      s.background.receiving = false) ∧
    (∀ later opener earlier, past = later ++ .taken opener :: earlier →
      earlier.head? = some (.stored opener)) ∧
    (∀ later opener earlier, past = later ++ .stored opener :: earlier →
      (later = [] ∧ s.latest = some opener) ∨ (∃ rest, later = rest ++ [SlotEvent.taken opener]) ∨
        ∃ newer rest, later = rest ++ [SlotEvent.stored newer]) ∧
    (∀ es x', s.latest.isSome = true → MailboxRun (s, past) es x' →
      (s.wake = true ∨ s.background = .takeLatest ∨ es.head? = some .rebindSend) →
      5 ≤ es.countP WriteEvent.isWriter → x'.1.background.inLoop = true →
      past.countP SlotEvent.isTake < x'.2.countP SlotEvent.isTake) ∧
    (∀ e s', s.step e = some s' → s.rebindReturns e = some false →
      s.dropped = true ∨ s.background.receiving = false) := by
  have hi : MailboxInv s past := mailboxInv_of_reaches h
  refine ⟨?_, fun _ _ _ hsplit => hi.history.taken hsplit, fun _ _ _ hsplit => hi.stored hsplit,
    ?_, ?_⟩
  · intro hstored
    rcases hrec : s.background.receiving with _ | _
    · exact .inr (.inr (.inr rfl))
    · rcases hi.delivered hstored hrec with hwake | hcall | hlook
      · exact .inl hwake
      · exact .inr (.inl hcall)
      · exact .inr (.inr (.inl hlook))
  · intro es x' hstored hrun htoken hsteps hloop
    rcases htoken with hwake | hlook | hsend
    · exact takes_of_run hrun hi hstored (.inl hwake) hsteps hloop
    · exact takes_of_run hrun hi hstored (.inr hlook) hsteps hloop
    · obtain ⟨es, rfl⟩ := List.head?_eq_some_iff.mp hsend
      rw [List.countP_cons_of_neg (by decide)] at hsteps
      exact takes_of_send hrun hi hstored hsteps hloop
  · intro e s' _ hfalse
    cases e with
    | rebindUpgrade =>
      simp only [rebindReturns] at hfalse
      split at hfalse
      · rename_i hclosed
        simp only [wakeClosed, Bool.and_eq_true] at hclosed
        exact .inl hclosed.1.1
      · cases hfalse
    | rebindSend => exact .inr (Option.some.inj hfalse)
    | _ => cases hfalse

/-- Two calls of `rebind` collapse into one token, and the writer is in its select. -/
def twoRebindsRun : List WriteEvent :=
  [.rebindUpgrade, .rebindUpgrade, .rebindStore 1, .rebindStore 2, .rebindSend, .rebindSend]

/-- The second opener is the one that is taken. -/
theorem rebinds_collapse :
    ∃ s past, writeSystemWithMailbox.Reaches (s, past) ∧ past = [.stored 2, .stored 1] ∧
      s.wake = true ∧ s.latest = some 2 ∧
      (∀ es x', MailboxRun (s, past) es x' → 5 ≤ es.countP WriteEvent.isWriter →
        x'.1.background.inLoop = true → 0 < x'.2.countP SlotEvent.isTake) := by
  have hrun : ∃ s past, writeSystemWithMailbox.Reaches (s, past) ∧
      past = [.stored 2, .stored 1] ∧ s.wake = true ∧ s.latest = some 2 :=
    ⟨_, _, ⟨twoRebindsRun, Machine.run_of_exec rfl⟩, rfl, rfl, rfl⟩
  obtain ⟨s, past, hs, rfl, hwake, hlatest⟩ := hrun
  obtain ⟨-, -, -, htakes, -⟩ := rebind_never_lost s _ hs
  refine ⟨s, _, hs, rfl, hwake, hlatest, fun es x' hrun hsteps hloop => ?_⟩
  exact htakes es x' (by rw [hlatest]; rfl) hrun (.inl hwake) hsteps hloop

/-- A flush fails, the writer ends, and then a call of `rebind` stores its opener. -/
def lateRebindRun : List WriteEvent :=
  [.pollFlush, .advance, .advance, .advance, .advance, .background, .background,
    .writerResult (.error ⟨"gone"⟩), .background, .background, .background,
    .rebindUpgrade, .rebindStore 1, .rebindSend]

/-- The opener stays in the mailbox without a token, a call in progress or a writer that
would look. -/
theorem late_rebind_stays :
    ¬ ∀ s, writeSystem.Reaches s → s.latest.isSome = true →
      s.wake = true ∨ 0 < s.rebinds ∨ s.background = .takeLatest := by
  intro hall
  have hrun : ∃ s, writeSystem.Reaches s ∧ s.latest = some 1 ∧ s.wake = false ∧ s.rebinds = 0 ∧
      s.background = .ended :=
    ⟨_, ⟨lateRebindRun, Machine.run_of_exec rfl⟩, rfl, rfl, rfl, rfl⟩
  obtain ⟨s, hs, hlatest, hwake, hrebinds, hpc⟩ := hrun
  rcases hall s hs (by rw [hlatest]; rfl) with h | h | h
  · rw [hwake] at h
    cases h
  · omega
  · rw [hpc] at h
    cases h

end RtpMux

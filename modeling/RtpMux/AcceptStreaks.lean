import RtpMux.ServeLoop

/-!
# Streaks of accept errors (`accept_error.rs`)

`AcceptErrorBackoff` keeps the current streak of failed accepts of a listener. It warns once in a
streak, when the third error comes or a fatal one, and a connection that ends a streak it warned of
is reported as a recovery. A listener that flaps without reaching the threshold stays quiet.

The counters and endpoints are said here on the streak itself, the list of its errors, which the
program does not keep. Over the serve loop with a history of what each listener's accepts came to
(`streaksOf`), `listener_warnings` is the whole of it: which warnings there are, in which order, and
what they say.
-/

namespace RtpMux

/-- The warnings of `failed_dispatching` and `accepted`. -/
inductive ListenerWarning where
  | failing (errorCount : Nat) (firstError lastError : String) (startedAt : Option Instant)
    (fatal : Bool)
  | recovered (errorCount : Nat) (firstError lastError : String) (startedAt : Option Instant)
  deriving DecidableEq, Repr

namespace AcceptErrorBackoff

/-- The warning of `failed_dispatching`. -/
def failedWarning (b : AcceptErrorBackoff) (error : AcceptError) (now : Instant) :
    Option ListenerWarning :=
  let next := (b.failedDispatching error now).2
  if !b.logged && (error.kind.isFatal || decide (warnAfterConsecutive ≤ next.errorCount)) then
    some (.failing next.errorCount (next.firstError.getD "?") (next.lastError.getD "?")
      next.startedAt error.kind.isFatal)
  else none

/-- The warning of `accepted`, which also is what it returns. -/
def acceptedWarning (b : AcceptErrorBackoff) : Option ListenerWarning :=
  if b.logged then
    some (.recovered b.errorCount (b.firstError.getD "?") (b.lastError.getD "?") b.startedAt)
  else none

end AcceptErrorBackoff

/-! ## Streaks -/

/-- The errors of a streak, oldest first, with the times at which they were counted. -/
abbrev Streak : Type := List (AcceptError × Instant)

namespace Streak

/-- The streak is one to warn of. -/
def warned (streak : Streak) : Bool :=
  decide (warnAfterConsecutive ≤ streak.length) || streak.any fun e => e.1.kind.isFatal

/-- What the backoff keeps of a streak. -/
def kept (streak : Streak) : AcceptErrorBackoff where
  errorCount := streak.length % 2 ^ 64
  firstError := streak.head?.map fun e => e.1.message
  lastError := streak.getLast?.map fun e => e.1.message
  startedAt := streak.head?.map Prod.snd
  logged := warned streak

/-- The warning that the last error of the streak gives rise to. -/
def warning (streak : Streak) : Option ListenerWarning :=
  if warned streak && !warned streak.dropLast then
    some (.failing (streak.length % 2 ^ 64) ((kept streak).firstError.getD "?")
      ((kept streak).lastError.getD "?") (kept streak).startedAt
      ((streak.getLast?.map fun e => e.1.kind.isFatal).getD false))
  else none

/-- The warnings of a streak so far. -/
def raised (streak : Streak) : List ListenerWarning := streak.inits.filterMap warning

/-- The warnings of a streak that a connection has ended. -/
def reported (streak : Streak) : List ListenerWarning :=
  raised streak ++ (kept streak).acceptedWarning.toList

/-- The pause after the last error of a streak, in nanoseconds. -/
def pause (streak : Streak) : Nat :=
  if streak.length < 3 then 0 else min (1000000 * 2 ^ (streak.length - 3)) 100000000

theorem warned_append (streak : Streak) (e : AcceptError × Instant) :
    warned (streak ++ [e]) =
      (warned streak || e.1.kind.isFatal || decide (warnAfterConsecutive ≤ streak.length + 1)) := by
  unfold warned
  rw [List.length_append, List.any_append, List.length_singleton, List.any_cons, List.any_nil,
    Bool.or_false]
  by_cases h : warnAfterConsecutive ≤ streak.length
  · simp [h, Nat.le_succ_of_le h]
  · simp only [h, decide_false, Bool.false_or]
    exact Bool.or_comm _ _

theorem raised_append (streak : Streak) (e : AcceptError × Instant) :
    raised (streak ++ [e]) = raised streak ++ (warning (streak ++ [e])).toList := by
  unfold raised
  rw [List.inits_append, List.filterMap_append]
  cases h : warning (streak ++ [e]) <;> simp [h]

/-- One warning in a streak, or none. -/
theorem length_raised (streak : Streak) :
    (raised streak).length = if warned streak then 1 else 0 := by
  induction streak using List.reverseRecOn with
  | nil => rfl
  | append_singleton streak e ih =>
    rw [raised_append, List.length_append, ih, warning, List.dropLast_concat]
    have hmono : warned streak = true → warned (streak ++ [e]) = true := by
      intro h
      rw [warned_append, h]
      rfl
    cases h : warned streak with
    | true => simp [hmono h]
    | false => cases warned (streak ++ [e]) <;> simp

/-- The counter wraps, but not before the streak was warned of. -/
theorem warned_iff_count (streak : Streak) (e : AcceptError × Instant) :
    (warned streak || e.1.kind.isFatal ||
        decide (warnAfterConsecutive ≤ (streak.length % 2 ^ 64 + 1) % 2 ^ 64)) =
      warned (streak ++ [e]) := by
  rw [warned_append]
  cases h : warned streak with
  | true => rfl
  | false =>
    have hshort : ¬ warnAfterConsecutive ≤ streak.length := by
      intro hle
      rw [warned, decide_eq_true hle] at h
      cases h
    have hlt : streak.length + 1 < 2 ^ 64 := by
      unfold warnAfterConsecutive at hshort
      omega
    rw [Nat.mod_eq_of_lt (by omega : streak.length < 2 ^ 64), Nat.mod_eq_of_lt hlt]

/-- Counting an error keeps of the streak what should be kept. -/
theorem failedDispatching_kept (streak : Streak) (error : AcceptError) (now : Instant) :
    ((kept streak).failedDispatching error now).2 = kept (streak ++ [(error, now)]) := by
  have hcount : (streak.length % 2 ^ 64 + 1) % 2 ^ 64 = (streak.length + 1) % 2 ^ 64 := by omega
  have hlogged := warned_iff_count streak (error, now)
  cases streak with
  | nil =>
    simp only [AcceptErrorBackoff.failedDispatching, kept, AcceptErrorBackoff.mk.injEq]
    exact ⟨rfl, rfl, rfl, rfl, hlogged⟩
  | cons e rest =>
    simp only [AcceptErrorBackoff.failedDispatching, kept, AcceptErrorBackoff.mk.injEq]
    refine ⟨?_, rfl, ?_, rfl, hlogged⟩
    · rw [hcount, List.length_append, List.length_singleton]
    · rw [List.getLast?_append, List.getLast?_singleton, Option.some_or, Option.map_some]

/-- The warning that the backoff raises is the one of the streak. -/
theorem failedWarning_kept (streak : Streak) (error : AcceptError) (now : Instant) :
    (kept streak).failedWarning error now = warning (streak ++ [(error, now)]) := by
  unfold AcceptErrorBackoff.failedWarning
  rw [failedDispatching_kept]
  have hlogged := warned_iff_count streak (error, now)
  have hcount : (kept (streak ++ [(error, now)])).errorCount =
      (streak.length % 2 ^ 64 + 1) % 2 ^ 64 := by
    simp only [kept, List.length_append, List.length_singleton]
    omega
  have hcondition : (!(kept streak).logged && (error.kind.isFatal ||
      decide (warnAfterConsecutive ≤ (kept (streak ++ [(error, now)])).errorCount))) =
      (warned (streak ++ [(error, now)]) && !warned (streak ++ [(error, now)]).dropLast) := by
    rw [List.dropLast_concat, ← hlogged, hcount]
    show (!warned streak && _) = _
    cases warned streak <;> simp
  simp only [hcondition, warning, List.getLast?_append, List.getLast?_singleton, Option.some_or,
    Option.map_some, Option.getD_some]
  rfl

/-- The pause is that of the streak, as long as the counter has not wrapped. -/
theorem retryDelay_kept {streak : Streak} (h : streak.length < 2 ^ 64) :
    (kept streak).retryDelay = pause streak := by
  have hcount : (kept streak).errorCount = streak.length := Nat.mod_eq_of_lt h
  unfold AcceptErrorBackoff.retryDelay pause
  rw [hcount]
  by_cases hquiet : streak.length < warnAfterConsecutive
  · rw [if_pos hquiet]
    exact (if_pos hquiet).symm
  · rw [if_neg hquiet]
    refine Eq.trans ?_ (if_neg hquiet).symm
    simp only [warnAfterConsecutive, retryBackoffBase, retryBackoffMax]
    by_cases hsmall : streak.length - 3 ≤ 16
    · rw [Nat.min_eq_left hsmall]
    · -- both exponents are past the cap
      have hpow : 2 ^ 16 ≤ 2 ^ (streak.length - 3) := Nat.pow_le_pow_right (by decide) (by omega)
      rw [Nat.min_eq_right (by omega : 16 ≤ streak.length - 3)]
      omega

end Streak

/-! ## The listeners of the serve loop -/

/-- What the accepts of a listener came to, oldest first, and the warnings about it. `none` is a
connection. -/
structure ListenerHistory where
  outcomes : List (Option (AcceptError × Instant))
  warnings : List ListenerWarning

/-- `handle_lane_accept` on one accept, as the history of its listener sees it. -/
def ListenerHistory.record (h : ListenerHistory) (b : AcceptErrorBackoff)
    (accept : Except AcceptError (LaneId × SocketAddr)) (now : Instant) : ListenerHistory :=
  match accept with
  | .ok _ => ⟨h.outcomes ++ [none], h.warnings ++ b.acceptedWarning.toList⟩
  | .error error =>
    ⟨h.outcomes ++ [some (error, now)], h.warnings ++ (b.failedWarning error now).toList⟩

/-- The histories of both listeners. -/
def recordAccept (s : ServeLoop) (e : ServeEvent) (h : LaneClass → ListenerHistory) :
    LaneClass → ListenerHistory :=
  match e with
  | .joined task handshake now =>
    match s.rtpAccepts.lookup task with
    | some t => fun lane =>
      if lane = t.lane then
        (h lane).record (s.backoff lane)
          (ServeLoop.finishFrameDeliveryAccept t.accept handshake) now
      else h lane
    | none => h
  | _ => h

/-- The serve loop with the histories of its listeners. -/
def streaksOf (addr bulkAddr : SocketAddr) (shutdown : Option ShutdownWatch) :
    Machine (ServeLoop × (LaneClass → ListenerHistory)) ServeEvent :=
  (serveLoop addr bulkAddr shutdown).withHistory (fun _ => ⟨[], []⟩) recordAccept

/-- A listener with the streaks of its history: those that a connection ended, and the current
one. -/
structure ListenerAccount (h : ListenerHistory) (b : AcceptErrorBackoff) (streaks : List Streak)
    (current : Streak) : Prop where
  outcomes : h.outcomes =
    (streaks.flatMap fun streak => streak.map some ++ [none]) ++ current.map some
  kept : b = current.kept
  /-- each streak gets its warnings, in order, and nothing else does -/
  warnings : h.warnings = streaks.flatMap Streak.reported ++ current.raised

/-- A connection ends the current streak. -/
theorem ListenerAccount.accepted {h : ListenerHistory} {b : AcceptErrorBackoff}
    {streaks : List Streak} {current : Streak} (ha : ListenerAccount h b streaks current)
    (connection : LaneId × SocketAddr) (now : Instant) :
    ListenerAccount (h.record b (.ok connection) now) b.accepted (streaks ++ [current]) [] := by
  refine ⟨?_, rfl, ?_⟩
  · simp [ListenerHistory.record, ha.outcomes]
  · simp [ListenerHistory.record, ha.warnings, ha.kept, Streak.reported, Streak.raised,
      Streak.warning, Streak.warned, warnAfterConsecutive]

/-- An error is put to the current streak. -/
theorem ListenerAccount.failed {h : ListenerHistory} {b : AcceptErrorBackoff}
    {streaks : List Streak} {current : Streak} (ha : ListenerAccount h b streaks current)
    (error : AcceptError) (now : Instant) :
    ListenerAccount (h.record b (.error error) now) (b.failedDispatching error now).2 streaks
      (current ++ [(error, now)]) := by
  refine ⟨?_, ?_, ?_⟩
  · simp [ListenerHistory.record, ha.outcomes]
  · rw [ha.kept, Streak.failedDispatching_kept]
  · simp only [ListenerHistory.record, ha.warnings, ha.kept, Streak.failedWarning_kept,
      Streak.raised_append, List.append_assoc]

/-- Some error of the streak is of a fatal kind. -/
def Streak.fatal (streak : Streak) : Bool := streak.any fun e => e.1.kind.isFatal

/-- Both listeners, with the loop they belong to. -/
structure ListenersAccount (s : ServeLoop) (h : LaneClass → ListenerHistory)
    (streaks : LaneClass → List Streak) (current : LaneClass → Streak) : Prop where
  listener : ∀ lane, ListenerAccount (h lane) (s.backoff lane) (streaks lane) (current lane)
  /-- no connection comes after a fatal error -/
  survived : ∀ lane, ∀ streak ∈ streaks lane, streak.fatal = false
  /-- a fatal error is the last of its streak, and the loop has ended with it -/
  fatal : ∀ lane, (current lane).fatal = true → ∃ source now,
    (current lane).getLast? = some (source, now) ∧ source.kind.isFatal = true ∧
      s.ended = some (.error (.accept source (s.localAddr lane)))
  /-- the loop pauses as long as the streak of some listener asks for -/
  paused : ∀ p, s.paused = some p →
    ∃ lane, current lane ≠ [] ∧ p.delay = (current lane).kept.retryDelay

theorem backoff_setBackoff (s : ServeLoop) (lane lane' : LaneClass) (b : AcceptErrorBackoff) :
    (s.setBackoff lane b).backoff lane' = if lane' = lane then b else s.backoff lane' := by
  cases lane <;> cases lane' <;> rfl

/-- Only a joined accept touches the listeners' streaks. -/
theorem backoff_of_step {s s' : ServeLoop} {e : ServeEvent} (hst : s.step e = some s')
    (hjoined : ∀ task handshake now, e ≠ .joined task handshake now) :
    s'.backoff = s.backoff ∧ (s'.paused = s.paused ∨ s'.paused = none) := by
  have hframe : s'.interactiveBackoff = s.interactiveBackoff ∧ s'.bulkBackoff = s.bulkBackoff ∧
      (s'.paused = s.paused ∨ s'.paused = none) := by
    unfold ServeLoop.step at hst
    split at hst
    · cases hst
    · cases e with
      | joined task handshake now => exact absurd rfl (hjoined task handshake now)
      | lane e =>
        have hlane : ∃ lanes, s' = { s with lanes := lanes } := by
          simp only [ServeLoop.laneStep] at hst
          split at hst
          · cases hst
          · obtain ⟨lanes, -, rfl⟩ := Option.map_eq_some_iff.mp hst
            exact ⟨lanes, rfl⟩
        obtain ⟨lanes, rfl⟩ := hlane
        exact ⟨rfl, rfl, .inl rfl⟩
      | polled | upkeep | shutdown | resume | signal | dropSignal =>
        simp only [ServeLoop.select, ServeLoop.spawnFrameDeliveryAccept] at hst
        grind
  refine ⟨?_, hframe.2.2⟩
  funext lane
  cases lane
  · exact hframe.1
  · exact hframe.2.1

/-- The loop takes a step only while it has not ended, so no current streak has a fatal error. -/
theorem ListenersAccount.not_fatal {s s' : ServeLoop} {h : LaneClass → ListenerHistory}
    {streaks : LaneClass → List Streak} {current : LaneClass → Streak} {e : ServeEvent}
    (ha : ListenersAccount s h streaks current) (hst : s.step e = some s') (lane : LaneClass) :
    (current lane).fatal = false := by
  by_contra hfatal
  obtain ⟨_, _, -, -, hended⟩ := ha.fatal lane (by simpa using hfatal)
  unfold ServeLoop.step at hst
  rw [hended] at hst
  cases hst

/-- A joined accept on a listener that yields a connection. -/
theorem ListenersAccount.accepted {s : ServeLoop} {h : LaneClass → ListenerHistory}
    {streaks : LaneClass → List Streak} {current : LaneClass → Streak}
    (ha : ListenersAccount s h streaks current) (hnot : ∀ lane, (current lane).fatal = false)
    (lane : LaneClass) {connection : LaneId × SocketAddr} {now : Instant} {s' : ServeLoop}
    (hbackoff : ∀ lane', s'.backoff lane' =
      if lane' = lane then (s.backoff lane).accepted else s.backoff lane')
    (hpaused : s'.paused = none) :
    ∃ streaks' current', ListenersAccount s'
      (fun lane' => if lane' = lane then (h lane').record (s.backoff lane') (.ok connection) now
        else h lane') streaks' current' := by
  refine ⟨fun lane' => if lane' = lane then streaks lane ++ [current lane] else streaks lane',
    fun lane' => if lane' = lane then [] else current lane', ?_, ?_, ?_, ?_⟩
  · intro lane'
    rw [hbackoff]
    by_cases hlane : lane' = lane
    · subst hlane
      simp only [if_true]
      exact (ha.listener lane').accepted connection now
    · simp only [if_neg hlane]
      exact ha.listener lane'
  · intro lane' streak hmem
    by_cases hlane : lane' = lane
    · simp only [if_pos hlane, List.mem_append, List.mem_singleton] at hmem
      rcases hmem with hmem | rfl
      · exact ha.survived lane streak hmem
      · exact hnot lane
    · simp only [if_neg hlane] at hmem
      exact ha.survived lane' streak hmem
  · intro lane' hfatal
    by_cases hlane : lane' = lane
    · simp [hlane, Streak.fatal] at hfatal
    · simp only [if_neg hlane, hnot lane'] at hfatal
      cases hfatal
  · intro p hp
    rw [hpaused] at hp
    cases hp

/-- A joined accept that failed: the loop pauses, or ends with the error. -/
theorem ListenersAccount.failed {s : ServeLoop} {h : LaneClass → ListenerHistory}
    {streaks : LaneClass → List Streak} {current : LaneClass → Streak}
    (ha : ListenersAccount s h streaks current) (hnot : ∀ lane, (current lane).fatal = false)
    (lane : LaneClass) {error : AcceptError} {now : Instant} {s' : ServeLoop}
    (hbackoff : ∀ lane', s'.backoff lane' =
      if lane' = lane then ((s.backoff lane).failedDispatching error now).2 else s.backoff lane')
    (hpaused : ∀ p, s'.paused = some p →
      p.delay = ((s.backoff lane).failedDispatching error now).2.retryDelay)
    (hended : error.kind.isFatal = true →
      s'.ended = some (.error (.accept error (s'.localAddr lane)))) :
    ∃ streaks' current', ListenersAccount s'
      (fun lane' => if lane' = lane then (h lane').record (s.backoff lane') (.error error) now
        else h lane') streaks' current' := by
  refine ⟨streaks, fun lane' => if lane' = lane then current lane ++
    [(error, now)] else current lane',
    ?_, ha.survived, ?_, ?_⟩
  · intro lane'
    rw [hbackoff]
    by_cases hlane : lane' = lane
    · subst hlane
      simp only [if_true]
      exact (ha.listener lane').failed error now
    · simp only [if_neg hlane]
      exact ha.listener lane'
  · intro lane' hfatal
    by_cases hlane : lane' = lane
    · subst hlane
      simp only [if_true, Streak.fatal, List.any_append, List.any_cons, List.any_nil,
        Bool.or_false] at hfatal
      rw [← Streak.fatal, hnot lane', Bool.false_or] at hfatal
      exact ⟨error, now, by simp, hfatal, hended hfatal⟩
    · simp only [if_neg hlane, hnot lane'] at hfatal
      cases hfatal
  · intro p hp
    refine ⟨lane, by simp, ?_⟩
    rw [hpaused p hp, (ha.listener lane).kept, Streak.failedDispatching_kept, if_pos rfl]

/-- One step of the loop, with the histories it records. -/
theorem ListenersAccount.step {s s' : ServeLoop} {h : LaneClass → ListenerHistory}
    {streaks : LaneClass → List Streak} {current : LaneClass → Streak} {e : ServeEvent}
    (ha : ListenersAccount s h streaks current) (hst : s.step e = some s') :
    ∃ streaks' current', ListenersAccount s' (recordAccept s e h) streaks' current' := by
  have hnot := ha.not_fatal hst
  -- only the end of an accept touches a streak; every other step keeps both backoffs
  by_cases hjoined : ∃ task handshake now, e = .joined task handshake now
  · obtain ⟨task, handshake, now, rfl⟩ := hjoined
    have hjoin : s.paused = none ∧ s.joinAccept task handshake now = some s' := by
      unfold ServeLoop.step at hst
      split at hst
      · cases hst
      · dsimp only at hst
        split at hst
        · cases hst
        · exact ⟨by simpa using ‹¬ s.paused.isSome = true›, hst⟩
    obtain ⟨hunpaused, hjoin⟩ := hjoin
    unfold ServeLoop.joinAccept at hjoin
    split at hjoin
    · rename_i t ht
      simp only [recordAccept, ht]
      generalize ServeLoop.finishFrameDeliveryAccept t.accept handshake = accept at hjoin ⊢
      unfold ServeLoop.handleLaneAccept at hjoin
      cases accept with
      | ok connection =>
        obtain ⟨lanes, -, rfl⟩ := Option.map_eq_some_iff.mp hjoin
        refine ha.accepted hnot t.lane ?_ ?_
        · intro lane'
          exact backoff_setBackoff { s with rtpAccepts := s.rtpAccepts.erase task } t.lane lane' _
        · cases t.lane <;> exact hunpaused
      | error error =>
        dsimp only at hjoin
        split at hjoin
        · rename_i b hfailed
          obtain rfl := Option.some.inj hjoin
          have hb : b = ((s.backoff t.lane).failedDispatching error now).2 := by
            change (s.backoff t.lane).failedDispatching error now = _ at hfailed
            rw [hfailed]
          subst hb
          refine ha.failed hnot t.lane ?_ ?_ ?_
          · intro lane'
            exact backoff_setBackoff { s with rtpAccepts := s.rtpAccepts.erase task } t.lane lane' _
          · rintro p hp
            obtain rfl := Option.some.inj hp
            rfl
          · intro hfatal
            simp [AcceptErrorBackoff.failedDispatching, hfatal] at hfailed
        · rename_i source b hfailed
          obtain rfl := Option.some.inj hjoin
          have hb : b = ((s.backoff t.lane).failedDispatching error now).2 ∧ source = error := by
            change (s.backoff t.lane).failedDispatching error now = _ at hfailed
            refine ⟨by rw [hfailed], ?_⟩
            have hfirst := congrArg Prod.fst hfailed
            simp only [AcceptErrorBackoff.failedDispatching] at hfirst
            split at hfirst
            · exact (Except.error.inj hfirst).symm
            · cases hfirst
          obtain ⟨rfl, rfl⟩ := hb
          refine ha.failed hnot t.lane ?_ ?_ ?_
          · intro lane'
            exact backoff_setBackoff { s with rtpAccepts := s.rtpAccepts.erase task } t.lane lane' _
          · intro p hp
            have : s.paused = some p := by
              cases hlane : t.lane <;> simpa [ServeLoop.setBackoff, hlane] using hp
            rw [hunpaused] at this
            cases this
          · intro _
            cases t.lane <;> rfl
    · cases hjoin
  · have hother : ∀ task handshake now, e ≠ .joined task handshake now :=
      fun task handshake now he => hjoined ⟨task, handshake, now, he⟩
    obtain ⟨hbackoff, hpaused⟩ := backoff_of_step hst hother
    have hrecord : recordAccept s e h = h := by
      cases e with
      | joined task handshake now => exact absurd rfl (hother task handshake now)
      | _ => rfl
    rw [hrecord]
    refine ⟨streaks, current, by rw [hbackoff]; exact ha.listener, ha.survived, ?_, ?_⟩
    · intro lane hfatal
      rw [hnot lane] at hfatal
      cases hfatal
    · intro p hp
      rcases hpaused with hpaused | hpaused
      · exact ha.paused p (hpaused ▸ hp)
      · rw [hpaused] at hp
        cases hp

/-- What holds of the warnings at any time. -/
structure WarningSafety (s : ServeLoop) (h : LaneClass → ListenerHistory)
    (streaks : LaneClass → List Streak) (current : LaneClass → Streak) : Prop where
  account : ListenersAccount s h streaks current
  /-- a streak is warned of at most once, and its recovery is reported exactly if it was -/
  once : ∀ lane, ∀ streak ∈ streaks lane,
    (streak.reported = [] ∧ streak.length < warnAfterConsecutive) ∨
      ∃ failing, streak.reported = [failing, .recovered (streak.length % 2 ^ 64)
        (streak.kept.firstError.getD "?") (streak.kept.lastError.getD "?") streak.kept.startedAt]
  /-- the pause follows the streak: nothing below the threshold, then doubling up to the cap -/
  paused : ∀ p, s.paused = some p → (∀ lane, (current lane).length < 2 ^ 64) →
    ∃ lane, current lane ≠ [] ∧ p.delay = (current lane).pause

/-- **The warnings of a listener**, in every run of the serve loop: those of its streaks, one after
the other. -/
theorem listener_warnings {addr bulkAddr : SocketAddr} {shutdown : Option ShutdownWatch}
    {x : ServeLoop × (LaneClass → ListenerHistory)}
    (hx : (streaksOf addr bulkAddr shutdown).Reaches x) :
    ∃ streaks current, WarningSafety x.1 x.2 streaks current := by
  obtain ⟨streaks, current, ha⟩ : ∃ streaks current, ListenersAccount x.1 x.2 streaks current := by
    refine hx.invariant_withHistory (I := fun _ => True)
      (J := fun s h => ∃ streaks current, ListenersAccount s h streaks current) (fun _ _ => trivial)
      ⟨fun _ => [], fun _ => [], ?_, ?_, ?_, ?_⟩ ?_
    · intro lane
      cases lane <;> exact ⟨rfl, rfl, rfl⟩
    · simp
    · intro lane hfatal
      cases hfatal
    · intro p hp
      cases hp
    · rintro s h e s' - ⟨streaks, current, ha⟩ hst
      exact ha.step hst
  refine ⟨streaks, current, ha, ?_, ?_⟩
  · intro lane streak hmem
    have hlength := Streak.length_raised streak
    cases hwarned : streak.warned with
    | false =>
      rw [hwarned] at hlength
      refine .inl ⟨?_, ?_⟩
      · rw [Streak.reported, List.length_eq_zero_iff.mp hlength]
        simp [AcceptErrorBackoff.acceptedWarning, Streak.kept, hwarned]
      · rw [Streak.warned, Bool.or_eq_false_iff, decide_eq_false_iff_not] at hwarned
        omega
    | true =>
      rw [hwarned] at hlength
      obtain ⟨failing, hfailing⟩ := List.length_eq_one_iff.mp hlength
      refine .inr ⟨failing, ?_⟩
      rw [Streak.reported, hfailing, AcceptErrorBackoff.acceptedWarning,
        if_pos (show streak.kept.logged = true from hwarned)]
      rfl
  · intro p hp hshort
    obtain ⟨lane, hne, hdelay⟩ := ha.paused p hp
    exact ⟨lane, hne, hdelay.trans (Streak.retryDelay_kept (hshort lane))⟩

/-- A listener that fails at a time, until the loop goes on. -/
def listenerFails (task : Nat) (now : Instant) (message : String) : List ServeEvent :=
  [.polled task .bulk (.error ⟨.connectionReset, message⟩),
    .joined task (.error ⟨.connectionReset, message⟩) now, .resume (now + 100 * 1000000)]

/-- Three errors and a connection: the third error is warned of, and the recovery is reported. -/
theorem listener_warnings_recovered :
    ∃ x, (streaksOf (.v4 0x0a0000fe#32 443) (.v4 0x0a0000fe#32 444) none).Reaches x ∧
      (x.2 .bulk).warnings =
        [.failing 3 "one" "three" (some 10) false, .recovered 3 "one" "three" (some 10)] ∧
      ∃ streaks current, WarningSafety x.1 x.2 streaks current := by
  have hrun : ∃ x, (streaksOf (.v4 0x0a0000fe#32 443) (.v4 0x0a0000fe#32 444) none).Reaches x ∧
      (x.2 .bulk).warnings =
        [.failing 3 "one" "three" (some 10) false, .recovered 3 "one" "three" (some 10)] :=
    ⟨_, ⟨listenerFails 0 10 "one" ++ listenerFails 1 20 "two" ++ listenerFails 2 30 "three" ++
      [ServeEvent.polled 3 .bulk (.ok ()), .joined 3 (.ok (1, .v4 0x0a000001#32 50003)) 40],
      Machine.run_of_exec rfl⟩, rfl⟩
  obtain ⟨x, hx, hwarnings⟩ := hrun
  exact ⟨x, hx, hwarnings, listener_warnings hx⟩

end RtpMux

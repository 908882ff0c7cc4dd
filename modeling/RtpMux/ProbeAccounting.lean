import RtpMux.Machine
import RtpMux.PathExplorer

/-!
# Probing one path (`explorer/tuple_stats.rs`)

A tick reads the echoes that have come in, gives up on a probe that has waited for `PROBE_TIMEOUT`,
and sends the next probe when it is due. What chance and the network decide of a tick is part of its
event: the echoes, the nonce of the probe that may be sent, whether its send fails, and the interval
drawn until the next one.

The history keeps every attempt with what became of it. It is written in the terms of the protocol
alone, and `Accounted` says that the counters of `TupleStats` agree with it in every state of every
run.

The interval is clamped to at least `mean / 4`, which is zero for a mean below four nanoseconds;
from there on a tick can leave the next probe due at once.
-/

namespace RtpMux

/-! ## Ticks -/

/-- `PROBE_TIMEOUT`. -/
def probeTimeout : Duration := 1500 * 1000000

/-- `DEAD_CADENCE_FACTOR`. -/
def deadCadenceFactor : Nat := 3

/-- `EWMA_ALPHA`. -/
def ewmaAlpha : ℚ := 3 / 10

/-- `u32::MAX`. -/
def u32Max : Nat := 2 ^ 32 - 1

/-- `Duration::MAX`. -/
def durationMax : Duration := (2 ^ 64 - 1) * 1000000000 + 999999999

/-- A duration times a number, `none` where the product panics. -/
def Duration.times (d : Duration) (k : Nat) : Option Duration :=
  if d * k ≤ durationMax then some (d * k) else none

/-- `poisson_interval`, with the product that is drawn. -/
def poissonInterval (mean draw : Duration) : Option Duration :=
  (Duration.times mean 4).map fun high =>
    if draw < mean / 4 then mean / 4 else if high < draw then high else draw

/-- One tick: the time, the nonces of the echoes that have come in, and for the probe that it may
send its nonce, whether the send goes through, and the interval drawn after it. -/
structure Tick where
  now : Instant
  echoes : List UInt64
  nonce : UInt64
  sent : Bool
  draw : Duration

namespace TupleStats

-- `Duration::mul_f64`, which rounds
variable (mulF64 : Duration → ℚ → Duration)

/-- `TupleStats::record`. -/
def record (t : TupleStats) (rtt : Option Duration) : TupleStats :=
  let lossSample : ℚ := if rtt.isSome then 0 else 1
  let loss := match t.loss with
    | none => lossSample
    | some prev => prev * (1 - ewmaAlpha) + lossSample * ewmaAlpha
  let t := { t with samples := min (t.samples + 1) u32Max, loss := some loss }
  match rtt with
  | some sample =>
    { t with
      consecutiveLosses := 0
      rtt := some (match t.rtt with
        | none => sample
        | some prev => mulF64 prev (1 - ewmaAlpha) + mulF64 sample ewmaAlpha) }
  | none => { t with consecutiveLosses := min (t.consecutiveLosses + 1) u32Max }

/-- One echo of the loop at the start of `tick`. -/
def receive (now : Instant) (t : TupleStats) (echo : UInt64) : TupleStats :=
  match t.outstanding with
  | some (expected, sentAt) =>
    if echo = expected then record mulF64 { t with
      outstanding := none } (some (now - sentAt)) else t
  | none => t

/-- Give up on a probe that has waited for too long. -/
def expire (now : Instant) (t : TupleStats) : TupleStats :=
  match t.outstanding with
  | some (_, sentAt) =>
    if probeTimeout ≤ now - sentAt then record mulF64 { t with outstanding := none } none else t
  | none => t

/-- Send a probe when none is outstanding and one is due. -/
def sendDue (mean : Duration) (e : Tick) (t : TupleStats) : Option TupleStats :=
  if t.outstanding.isNone ∧ t.nextProbeAt ≤ e.now then
    let t := if e.sent then { t with outstanding := some (e.nonce, e.now) }
        else record mulF64 t none
    let cadence := if t.dead then Duration.times mean deadCadenceFactor else some mean
    (cadence.bind fun mean => poissonInterval mean e.draw).map fun interval =>
      { t with nextProbeAt := e.now + interval }
  else some t

/-- `TupleStats::tick`, or `none` where it panics. -/
def tick (mean : Duration) (e : Tick) (t : TupleStats) : Option TupleStats :=
  sendDue mulF64 mean e (expire mulF64 e.now (e.echoes.foldl (receive mulF64 e.now) t))

end TupleStats

/-- A path under probe and the time of its last tick. -/
structure ProbedPath where
  stats : TupleStats
  lastTick : Option Instant

/-- The ticks of a path, at times that do not go back. -/
def probedPath (mulF64 : Duration → ℚ → Duration) (mean : Duration) (start : Instant)
    (stagger : Duration) :
    Machine ProbedPath Tick where
  init := ⟨.new start stagger, none⟩
  step s e :=
    if ∀ last ∈ s.lastTick, last ≤ e.now then
      (s.stats.tick mulF64 mean e).map fun stats => ⟨stats, some e.now⟩
    else none

/-! ## What becomes of an attempt -/

/-- The sample an attempt was turned into: with the time of that tick and, for a timeout, of the
tick before. -/
inductive Fate where
  | echoed (now : Instant)
  | timedOut (last now : Instant)
  | sendFailed
deriving DecidableEq

/-- The fate counts as a loss. -/
def Fate.isLoss : Fate → Bool
  | .echoed _ => false
  | .timedOut .. | .sendFailed => true

/-- An attempt to probe, and the sample it was turned into. -/
structure Attempt where
  nonce : UInt64
  sentAt : Instant
  fate : Option Fate
deriving DecidableEq

/-- What a tick decides of an attempt that waits: an echo with its nonce comes before the
timeout. -/
def Attempt.settle (last : Instant) (e : Tick) (a : Attempt) : Attempt :=
  match a.fate with
  | some _ => a
  | none =>
    if a.nonce ∈ e.echoes then { a with fate := some (.echoed e.now) }
    else if a.sentAt + probeTimeout ≤ e.now then { a with fate := some (.timedOut last e.now) }
    else a

/-- The attempt that a tick makes. -/
def Tick.attempt (e : Tick) : Attempt := ⟨e.nonce, e.now, if e.sent then none else some .sendFailed⟩

/-- The attempts of a path, the latest first. A tick settles the one that waits and makes another
where none waits any more and one is due. -/
def recordAttempts (s : ProbedPath) (e : Tick) (attempts : List Attempt) : List Attempt :=
  let settled := attempts.map (Attempt.settle (s.lastTick.getD e.now) e)
  if (∀ a ∈ settled, a.fate ≠ none) ∧ s.stats.nextProbeAt ≤ e.now then e.attempt ::
    settled else settled

/-- The samples, the latest first. -/
def samplesOf (attempts : List Attempt) : List Fate := attempts.filterMap Attempt.fate

/-- The attempt that waits for its echo. -/
def waitingOf : List Attempt → Option (UInt64 × Instant)
  | [] => none
  | a :: _ => if a.fate = none then some (a.nonce, a.sentAt) else none

/-- Every attempt is turned into exactly one sample: an echo with its nonce while it waits, a
timeout at the first tick at or after its deadline, or a failed send. The counters, the score and
the next probe go by that. -/
structure ProbeAccounting (s : ProbedPath) (attempts : List Attempt) : Prop where
  /-- only the latest attempt can be without a sample, and it is the one that waits -/
  settled : ∀ a ∈ attempts.tail, a.fate ≠ none
  outstanding : s.stats.outstanding = waitingOf attempts
  /-- a probe that waits is not overdue, and a timeout was no tick late -/
  waits : ∀ a ∈ attempts, a.fate = none → ∀ now ∈ s.lastTick, now < a.sentAt + probeTimeout
  timely : ∀ a ∈ attempts, ∀ last now, a.fate = some (.timedOut last now) →
    (last < a.sentAt + probeTimeout) ∧ a.sentAt + probeTimeout ≤ now
  /-- samples, and the outstanding probe, are as many as the attempts -/
  counted : (samplesOf attempts).length + (if s.stats.outstanding.isSome then 1 else 0) =
    attempts.length
  samples : s.stats.samples = min (samplesOf attempts).length u32Max
  consecutiveLosses : s.stats.consecutiveLosses =
    min ((samplesOf attempts).takeWhile Fate.isLoss).length u32Max
  score : s.stats.score.isSome = true ↔ minSamples ≤ (samplesOf attempts).length ∧
    (∃ f ∈ samplesOf attempts, f.isLoss = false) ∧
    ∃ f ∈ (samplesOf attempts).take deadConsecutiveLosses, f.isLoss = false
  due : ∀ now ∈ s.lastTick, s.stats.outstanding.isSome = true ∨ now < s.stats.nextProbeAt

/-! ## The counters -/

/-- The counters of `t` go by the samples `fates`, the latest first. -/
structure Counts (t : TupleStats) (fates : List Fate) : Prop where
  samples : t.samples = min fates.length u32Max
  losses : t.consecutiveLosses = min (fates.takeWhile Fate.isLoss).length u32Max
  rtt : t.rtt.isSome = true ↔ ∃ f ∈ fates, f.isLoss = false

namespace Counts

variable {mulF64 : Duration → ℚ → Duration} {t : TupleStats} {fates : List Fate}

/-- The counts depend on the samples, the losses and the mean only. -/
theorem of_eq {t' : TupleStats} (h : Counts t fates) (hsamples : t'.samples = t.samples)
    (hlosses : t'.consecutiveLosses = t.consecutiveLosses) (hrtt : t'.rtt = t.rtt) :
    Counts t' fates :=
  ⟨hsamples.trans h.samples, hlosses.trans h.losses, hrtt ▸ h.rtt⟩

/-- An echo is recorded. -/
theorem echoed (h : Counts t fates) (rtt : Duration) (now : Instant) :
    Counts (t.record mulF64 (some rtt)) (.echoed now :: fates) where
  samples := by
    simp only [TupleStats.record, h.samples, List.length_cons]
    omega
  losses := by simp [TupleStats.record, Fate.isLoss]
  rtt := by simp [TupleStats.record, Fate.isLoss]

/-- A loss is recorded. -/
theorem lost {f : Fate} (h : Counts t fates) (hloss : f.isLoss = true) :
    Counts (t.record mulF64 none) (f :: fates) where
  samples := by
    simp only [TupleStats.record, h.samples, List.length_cons]
    omega
  losses := by
    simp only [TupleStats.record, h.losses, List.takeWhile_cons, hloss, if_true, List.length_cons]
    omega
  rtt := by simpa [TupleStats.record, hloss] using h.rtt

end Counts

/-- A run of losses reaches `n` exactly when the last `n` samples are losses. -/
theorem le_takeWhile_length_iff (n : Nat) (fates : List Fate) :
    n ≤ (fates.takeWhile Fate.isLoss).length ↔ n ≤ fates.length ∧
      ∀ f ∈ fates.take n, f.isLoss = true := by
  induction fates generalizing n with
  | nil => simp
  | cons f fates ih =>
    cases n with
    | zero => simp
    | succ n =>
      cases hloss : f.isLoss with
      | false => simp [hloss]
      | true => simp [hloss, ih n]

/-- **The score.** -/
theorem Counts.score_isSome {t : TupleStats} {fates : List Fate} (h : Counts t fates) :
    t.score.isSome = true ↔ minSamples ≤ fates.length ∧ (∃ f ∈ fates, f.isLoss = false) ∧
      ∃ f ∈ fates.take deadConsecutiveLosses, f.isLoss = false := by
  have hdead : t.dead = true ↔ deadConsecutiveLosses ≤ (fates.takeWhile Fate.isLoss).length := by
    simp only [TupleStats.dead, h.losses, decide_eq_true_eq, deadConsecutiveLosses, u32Max]
    omega
  have hsamples : minSamples ≤ t.samples ↔ minSamples ≤ fates.length := by
    simp only [h.samples, minSamples, u32Max]
    omega
  have hscore : t.score.isSome = true ↔ t.alive = true := by
    unfold TupleStats.score
    cases halive : t.alive with
    | false => simp
    | true =>
      simp only [TupleStats.alive, Bool.and_eq_true] at halive
      simp [halive.1.2]
  rw [hscore, TupleStats.alive, Bool.and_eq_true, Bool.and_eq_true, decide_eq_true_eq, hsamples,
    h.rtt, and_assoc]
  refine and_congr_right fun hmin => and_congr_right fun _ => ?_
  rw [Bool.not_eq_true', ← Bool.not_eq_true, hdead, le_takeWhile_length_iff]
  simp only [not_and, not_forall, Bool.not_eq_true]
  exact ⟨fun hsome => by simpa using hsome hmin, fun hsome _ => by simpa using hsome⟩

/-! ## One tick -/

namespace TupleStats

variable {mulF64 : Duration → ℚ → Duration} {t : TupleStats}

@[simp] theorem record_outstanding (rtt : Option Duration) :
    (t.record mulF64 rtt).outstanding = t.outstanding := by
  cases rtt <;> rfl

@[simp] theorem record_nextProbeAt (rtt : Option Duration) :
    (t.record mulF64 rtt).nextProbeAt = t.nextProbeAt := by
  cases rtt <;> rfl

/-- Without a probe that waits, echoes are foreign. -/
theorem foldl_receive_none (now : Instant) (echoes : List UInt64) (h : t.outstanding = none) :
    echoes.foldl (receive mulF64 now) t = t := by
  induction echoes with
  | nil => rfl
  | cons echo echoes ih =>
    have hreceive : receive mulF64 now t echo = t := by simp [receive, h]
    rw [List.foldl_cons, hreceive, ih]

/-- The first echo of the probe that waits is recorded, and no other. -/
theorem foldl_receive_some {now sentAt : Instant} {nonce : UInt64} (echoes : List UInt64)
    (h : t.outstanding = some (nonce, sentAt)) :
    echoes.foldl (receive mulF64 now) t =
      if nonce ∈ echoes then record mulF64 { t with outstanding := none } (some (now - sentAt))
        else t := by
  induction echoes with
  | nil => simp
  | cons echo echoes ih =>
    by_cases hecho : echo = nonce
    · have hreceive : receive mulF64 now t echo = record mulF64 { t with
          outstanding := none } (some (now - sentAt)) := by
        simp [receive, h, hecho]
      rw [List.foldl_cons, hreceive, foldl_receive_none now echoes (record_outstanding _)]
      simp [hecho]
    · have hreceive : receive mulF64 now t echo = t := by simp [receive, h, hecho]
      rw [List.foldl_cons, hreceive, ih]
      simp [Ne.symm hecho]

end TupleStats

/-- A probe is overdue when its deadline is not ahead. -/
theorem overdue_iff {timeout : Nat} (now sentAt : Nat) (hpos : 0 < timeout) :
    timeout ≤ now - sentAt ↔ sentAt + timeout ≤ now := by omega

/-- A product that does not overflow is the product. -/
theorem Duration.times_eq_some {d product : Duration} {k : Nat}
    (h : Duration.times d k = some product) :
    product = d * k := by
  unfold Duration.times at h
  split at h
  · exact (Option.some.inj h).symm
  · cases h

/-- The statistics go by the attempts. -/
structure Tracked (t : TupleStats) (attempts : List Attempt) : Prop where
  settled : ∀ a ∈ attempts.tail, a.fate ≠ none
  outstanding : t.outstanding = waitingOf attempts
  counts : Counts t (samplesOf attempts)

/-- A settled attempt stays as it is. -/
theorem Attempt.settle_of_settled {a : Attempt} (last : Instant) (e : Tick) (h : a.fate ≠ none) :
    a.settle last e = a := by
  obtain ⟨f, hf⟩ := Option.ne_none_iff_exists'.1 h
  simp [Attempt.settle, hf]

/-- Settled attempts stay as they are. -/
theorem map_settle_of_settled {attempts : List Attempt} (last : Instant) (e : Tick)
    (h : ∀ a ∈ attempts, a.fate ≠ none) : attempts.map (Attempt.settle last e) = attempts :=
  (List.map_congr_left fun a ha => Attempt.settle_of_settled last e (h a ha)).trans (List.map_id _)

/-- No attempt waits exactly when each has its sample. -/
theorem waitingOf_eq_none {attempts : List Attempt}
    (hsettled : ∀ a ∈ attempts.tail, a.fate ≠ none) :
    waitingOf attempts = none ↔ ∀ a ∈ attempts, a.fate ≠ none := by
  cases attempts with
  | nil => simp [waitingOf]
  | cons a attempts =>
    rw [List.forall_mem_cons, waitingOf]
    by_cases hfate : a.fate = none
    · simp [hfate]
    · simpa [hfate] using hsettled

namespace Tracked

variable {mulF64 : Duration → ℚ → Duration} {t : TupleStats} {attempts : List Attempt}

/-- **Settling.** The echoes and the timeout of a tick turn the attempt that waits into its
sample. -/
theorem settle (h : Tracked t attempts) (last : Instant) (e : Tick) :
    Tracked ((e.echoes.foldl (TupleStats.receive mulF64 e.now) t).expire mulF64 e.now)
      (attempts.map (Attempt.settle last e)) := by
  by_cases hwaits : waitingOf attempts = none
  · -- nothing waits, and nothing happens
    have hnone : t.outstanding = none := h.outstanding.trans hwaits
    have hexpire : t.expire mulF64 e.now = t := by simp [TupleStats.expire, hnone]
    rw [TupleStats.foldl_receive_none e.now e.echoes hnone, hexpire,
      map_settle_of_settled last e ((waitingOf_eq_none h.settled).1 hwaits)]
    exact h
  · obtain _ | ⟨a, rest⟩ := attempts
    · exact absurd rfl hwaits
    have hfate : a.fate = none := by
      by_contra hfate
      exact hwaits (by simp [waitingOf, hfate])
    have hsome : t.outstanding = some (a.nonce, a.sentAt) := by
      rw [h.outstanding]
      simp [waitingOf, hfate]
    have hcounts : Counts { t with outstanding := none } (samplesOf rest) := by
      have hcounts := h.counts
      simp only [samplesOf, List.filterMap_cons, hfate] at hcounts
      exact hcounts.of_eq rfl rfl rfl
    have hrest := map_settle_of_settled last e h.settled
    rw [List.tail_cons] at hrest
    rw [List.map_cons, hrest, TupleStats.foldl_receive_some e.echoes hsome]
    by_cases hecho : a.nonce ∈ e.echoes
    · have hexpire : (TupleStats.record mulF64 { t with
          outstanding := none } (some (e.now - a.sentAt))).expire
          mulF64 e.now = TupleStats.record mulF64 { t with
            outstanding := none } (some (e.now - a.sentAt)) := by
        simp [TupleStats.expire]
      rw [if_pos hecho, hexpire]
      refine ⟨h.settled, ?_, ?_⟩
      · simp [Attempt.settle, hfate, hecho, waitingOf]
      · simpa [Attempt.settle, hfate, hecho, samplesOf] using hcounts.echoed
          (e.now - a.sentAt) e.now
    · have hdeadline : probeTimeout ≤ e.now - a.sentAt ↔ a.sentAt + probeTimeout ≤ e.now :=
        overdue_iff e.now a.sentAt (by decide)
      rw [if_neg hecho]
      simp only [TupleStats.expire, hsome, hdeadline]
      by_cases htimeout : a.sentAt + probeTimeout ≤ e.now
      · rw [if_pos htimeout]
        refine ⟨h.settled, ?_, ?_⟩
        · simp [Attempt.settle, hfate, hecho, htimeout, waitingOf]
        · have hlost : Counts (TupleStats.record mulF64 { t with outstanding := none } none)
              (.timedOut last e.now :: samplesOf rest) := hcounts.lost rfl
          simpa [Attempt.settle, hfate, hecho, htimeout, samplesOf] using hlost
      · rw [if_neg htimeout]
        have hstays : a.settle last e = a := by simp [Attempt.settle, hfate, hecho, htimeout]
        rw [hstays]
        exact h

end Tracked

namespace TupleStats

variable {mulF64 : Duration → ℚ → Duration} {mean : Duration} {e : Tick} {t t' : TupleStats}

theorem nextProbeAt_expire (now : Instant) : (t.expire mulF64 now).nextProbeAt = t.nextProbeAt := by
  unfold expire
  split
  · split
    · exact record_nextProbeAt _
    · rfl
  · rfl

theorem nextProbeAt_foldl_receive (now : Instant) (echoes : List UInt64) :
    (echoes.foldl (receive mulF64 now) t).nextProbeAt = t.nextProbeAt := by
  cases h : t.outstanding with
  | none => rw [foldl_receive_none now echoes h]
  | some waiting =>
    rw [foldl_receive_some echoes h]
    split
    · exact record_nextProbeAt _
    · rfl

/-- The probe that a tick sends, and when the next one is due. -/
theorem sendDue_cases (h : t.sendDue mulF64 mean e = some t') :
    (¬(t.outstanding = none ∧ t.nextProbeAt ≤ e.now) ∧ t' = t) ∨
    ((t.outstanding = none ∧ t.nextProbeAt ≤ e.now) ∧ ∃ cadence interval,
      (cadence = mean ∨ cadence = mean * deadCadenceFactor) ∧
        poissonInterval cadence e.draw = some interval ∧
      t' = { if e.sent then { t with outstanding := some (e.nonce, e.now) }
        else t.record mulF64 none with nextProbeAt := e.now + interval }) := by
  unfold sendDue at h
  simp only [Option.isNone_iff_eq_none] at h
  split at h
  · next hdue =>
    refine .inr ⟨hdue, ?_⟩
    obtain ⟨interval, hbind, heq⟩ := Option.map_eq_some_iff.1 h
    obtain ⟨cadence, hcadence, hinterval⟩ := Option.bind_eq_some_iff.1 hbind
    refine ⟨cadence, interval, ?_, hinterval, heq.symm⟩
    rcases ite_eq_iff.1 hcadence with ⟨-, hdead⟩ | ⟨-, halive⟩
    · exact .inr (Duration.times_eq_some hdead)
    · exact .inl (Option.some.inj halive).symm
  · next hnot => exact .inl ⟨hnot, (Option.some.inj h).symm⟩

end TupleStats

/-- The interval is positive where a quarter of the mean is. -/
theorem poissonInterval_pos {mean draw interval : Duration} (hmean : 4 ≤ mean)
    (h : poissonInterval mean draw = some interval) : 0 < interval := by
  have hclamp : ∀ mean draw : Nat, 4 ≤ mean →
      0 < (if draw < mean / 4 then mean / 4 else if mean * 4 < draw then mean * 4 else draw) := by
    intro mean draw hmean
    split
    · omega
    · split <;> omega
  obtain ⟨high, hhigh, rfl⟩ := Option.map_eq_some_iff.1 h
  obtain rfl := Duration.times_eq_some hhigh
  exact hclamp mean draw hmean

section Runs

variable {mulF64 : Duration → ℚ → Duration} {mean start stagger : Duration} {s s' : ProbedPath}
  {e : Tick}

/-- What a step of the machine is. -/
theorem probedPath_step (h : (probedPath mulF64 mean start stagger).step s e = some s') :
    (∀ last ∈ s.lastTick, last ≤ e.now) ∧ s.stats.tick mulF64 mean e = some s'.stats ∧
      s'.lastTick = some e.now := by
  simp only [probedPath] at h
  split at h
  · next hlast =>
    obtain ⟨stats, hstats, rfl⟩ := Option.map_eq_some_iff.1 h
    exact ⟨hlast, hstats, rfl⟩
  · cases h

/-- **The counters through a tick.** -/
theorem Tracked.step {attempts : List Attempt} (h : Tracked s.stats attempts)
    (hst : (probedPath mulF64 mean start stagger).step s e = some s') :
    Tracked s'.stats (recordAttempts s e attempts) := by
  obtain ⟨-, htick, -⟩ := probedPath_step hst
  have hsettled := @settle mulF64 _ _ h (s.lastTick.getD e.now) e
  have hnext : ((e.echoes.foldl (TupleStats.receive mulF64 e.now) s.stats).expire mulF64
      e.now).nextProbeAt =
      s.stats.nextProbeAt := by
    rw [TupleStats.nextProbeAt_expire, TupleStats.nextProbeAt_foldl_receive]
  have hdue : (∀ a ∈ attempts.map (Attempt.settle (s.lastTick.getD e.now) e), a.fate ≠ none) ↔
      ((e.echoes.foldl (TupleStats.receive mulF64 e.now) s.stats).expire mulF64 e.now).outstanding =
        none := by
    rw [hsettled.outstanding, waitingOf_eq_none hsettled.settled]
  rcases TupleStats.sendDue_cases htick with ⟨hnot, heq⟩ | ⟨⟨hnone, hle⟩, cadence, interval,
      -, -, heq⟩
  · rw [hnext, ← hdue] at hnot
    rw [heq, recordAttempts, if_neg hnot]
    exact hsettled
  · rw [hnext] at hle
    have hall := hdue.2 hnone
    rw [recordAttempts, if_pos ⟨hall, hle⟩]
    cases hsent : e.sent with
    | true =>
      rw [heq, hsent]
      refine ⟨hall, ?_, ?_⟩
      · simp [waitingOf, Tick.attempt, hsent]
      · have hcounts : samplesOf
            (e.attempt :: attempts.map (Attempt.settle (s.lastTick.getD e.now) e)) =
            samplesOf (attempts.map (Attempt.settle (s.lastTick.getD e.now) e)) := by
          simp [samplesOf, Tick.attempt, hsent]
        rw [hcounts]
        exact hsettled.counts.of_eq rfl rfl rfl
    | false =>
      rw [heq, hsent]
      refine ⟨hall, ?_, ?_⟩
      · simpa [waitingOf, Tick.attempt, hsent] using hnone
      · have hcounts : samplesOf
            (e.attempt :: attempts.map (Attempt.settle (s.lastTick.getD e.now) e)) =
            .sendFailed :: samplesOf (attempts.map (Attempt.settle (s.lastTick.getD e.now) e)) := by
          simp [samplesOf, Tick.attempt, hsent]
        rw [hcounts]
        have hlost : Counts (TupleStats.record mulF64 _ none) (.sendFailed :: _) :=
          hsettled.counts.lost rfl
        exact hlost.of_eq rfl rfl rfl

/-- What holds of a path and its attempts between ticks. -/
structure ProbeInv (s : ProbedPath) (attempts : List Attempt) : Prop where
  tracked : Tracked s.stats attempts
  fresh : s.lastTick = none → attempts = []
  waits : ∀ a ∈ attempts, a.fate = none → ∀ now ∈ s.lastTick, now < a.sentAt + probeTimeout
  timely : ∀ a ∈ attempts, ∀ last now, a.fate = some (.timedOut last now) →
    (last < a.sentAt + probeTimeout) ∧ a.sentAt + probeTimeout ≤ now

/-- At the start nothing was sent. -/
theorem probeInv_init (start : Instant) (stagger : Duration) :
    ProbeInv ⟨.new start stagger, none⟩ [] where
  tracked := ⟨by simp, rfl, ⟨rfl, rfl, by simp [TupleStats.new, samplesOf]⟩⟩
  fresh _ := rfl
  waits := by simp
  timely := by simp

/-- An attempt after a tick is one from before, settled, or the one that the tick has made. -/
theorem mem_recordAttempts {attempts : List Attempt} {a : Attempt}
    (h : a ∈ recordAttempts s e attempts) :
    a = e.attempt ∨ ∃ b ∈ attempts, a = b.settle (s.lastTick.getD e.now) e := by
  simp only [recordAttempts] at h
  split at h
  · rcases List.mem_cons.1 h with rfl | h
    · exact .inl rfl
    · obtain ⟨b, hb, rfl⟩ := List.mem_map.1 h
      exact .inr ⟨b, hb, rfl⟩
  · obtain ⟨b, hb, rfl⟩ := List.mem_map.1 h
    exact .inr ⟨b, hb, rfl⟩

/-- Settling keeps the time of sending. -/
theorem Attempt.settle_sentAt (a : Attempt) (last : Instant) (e : Tick) :
    (a.settle last e).sentAt = a.sentAt := by
  unfold Attempt.settle
  split
  · rfl
  · split
    · rfl
    · split <;> rfl

/-- An attempt that is still waiting is younger than the timeout. -/
theorem Attempt.settle_eq_waiting {a : Attempt} {last : Instant}
    (h : (a.settle last e).fate = none) :
    e.now < (a.settle last e).sentAt + probeTimeout := by
  rw [Attempt.settle_sentAt]
  unfold Attempt.settle at h
  split at h
  · next f hf => simp [hf] at h
  · split at h
    · simp at h
    · split at h
      · simp at h
      · next hnot => exact Nat.lt_of_not_le hnot

/-- A timeout is old, or was decided by this tick of an attempt that had waited. -/
theorem Attempt.settle_eq_timedOut {a : Attempt} {last last' now : Instant}
    (h : (a.settle last e).fate = some (.timedOut last' now)) :
    a.fate = some (.timedOut last' now) ∨
      (a.fate = none ∧ last' = last ∧ now = e.now ∧ a.sentAt + probeTimeout ≤ e.now) := by
  unfold Attempt.settle at h
  split at h
  · next f hf => exact .inl h
  · next hf =>
    split at h
    · simp at h
    · split at h
      · next htimeout =>
        simp only [Option.some.injEq, Fate.timedOut.injEq] at h
        exact .inr ⟨hf, h.1.symm, h.2.symm, htimeout⟩
      · rw [hf] at h
        cases h

/-- **One tick.** -/
theorem ProbeInv.step {attempts : List Attempt} (h : ProbeInv s attempts)
    (hst : (probedPath mulF64 mean start stagger).step s e = some s') :
    ProbeInv s' (recordAttempts s e attempts) := by
  obtain ⟨hlast, -, hnow⟩ := probedPath_step hst
  refine ⟨h.tracked.step hst, fun hnone => ?_, fun a ha hfate now hmem => ?_,
    fun a ha last now hfate => ?_⟩
  · rw [hnow] at hnone
    cases hnone
  · obtain rfl : e.now = now := by
      rw [hnow] at hmem
      exact Option.some.inj hmem
    rcases mem_recordAttempts ha with rfl | ⟨b, hb, rfl⟩
    · exact Nat.lt_add_of_pos_right (by decide)
    · exact Attempt.settle_eq_waiting hfate
  · rcases mem_recordAttempts ha with rfl | ⟨b, hb, rfl⟩
    · simp only [Tick.attempt] at hfate
      split at hfate <;> cases hfate
    · rw [Attempt.settle_sentAt]
      rcases Attempt.settle_eq_timedOut hfate with hold | ⟨hwaited, rfl, rfl, htimeout⟩
      · exact h.timely b hb last now hold
      · refine ⟨?_, htimeout⟩
        -- the attempt was made in a tick before this one
        cases hprevious : s.lastTick with
        | none =>
          rw [h.fresh hprevious] at hb
          cases hb
        | some previous => exact h.waits b hb hwaited previous hprevious

/-- **The next probe.** With a mean of at least four nanoseconds, a tick leaves a probe that waits
or one that is not due yet. -/
theorem due_of_step (hmean : 4 ≤ mean)
    (hst : (probedPath mulF64 mean start stagger).step s e = some s') :
    ∀ now ∈ s'.lastTick, s'.stats.outstanding.isSome = true ∨ now < s'.stats.nextProbeAt := by
  obtain ⟨-, htick, hnow⟩ := probedPath_step hst
  intro now hmem
  obtain rfl : e.now = now := by
    rw [hnow] at hmem
    exact Option.some.inj hmem
  rcases TupleStats.sendDue_cases htick with ⟨hnot, heq⟩ | ⟨-, cadence, interval, hcadence,
      hinterval, heq⟩
  · rw [heq]
    by_cases hnone : ((e.echoes.foldl (TupleStats.receive mulF64 e.now) s.stats).expire mulF64
      e.now).outstanding = none
    · exact .inr (Nat.lt_of_not_le fun hle => hnot ⟨hnone, hle⟩)
    · exact .inl (Option.isSome_iff_ne_none.2 hnone)
  · have hcadence' : 4 ≤ cadence := by
      rcases hcadence with rfl | rfl
      · exact hmean
      · exact Nat.le_trans hmean (Nat.le_mul_of_pos_right mean (by decide))
    rw [heq]
    exact .inr (Nat.lt_add_of_pos_right (poissonInterval_pos hcadence' hinterval))

/-- Every attempt but a waiting one is a sample. -/
theorem samplesOf_length {attempts : List Attempt} (hsettled : ∀ a ∈ attempts.tail, a.fate ≠ none) :
    (samplesOf attempts).length + (if (waitingOf attempts).isSome then 1 else 0) =
      attempts.length := by
  have hall : ∀ attempts : List Attempt, (∀ a ∈ attempts, a.fate ≠ none) →
      (samplesOf attempts).length = attempts.length := by
    intro attempts h
    induction attempts with
    | nil => rfl
    | cons a attempts ih =>
      rw [List.forall_mem_cons] at h
      obtain ⟨f, hf⟩ := Option.ne_none_iff_exists'.1 h.1
      simpa [samplesOf, hf] using ih h.2
  cases attempts with
  | nil => rfl
  | cons a attempts =>
    have hlength := hall attempts hsettled
    simp only [samplesOf] at hlength
    cases hfate : a.fate with
    | none => simp [samplesOf, waitingOf, hfate, hlength]
    | some f => simp [samplesOf, waitingOf, hfate, hlength]

/-- The invariant gives the account. -/
theorem ProbeInv.accounting {attempts : List Attempt} (h : ProbeInv s attempts)
    (hdue : ∀ now ∈ s.lastTick, s.stats.outstanding.isSome = true ∨ now < s.stats.nextProbeAt) :
    ProbeAccounting s attempts where
  settled := h.tracked.settled
  outstanding := h.tracked.outstanding
  waits := h.waits
  timely := h.timely
  counted := by
    rw [h.tracked.outstanding]
    exact samplesOf_length h.tracked.settled
  samples := h.tracked.counts.samples
  consecutiveLosses := h.tracked.counts.losses
  score := h.tracked.counts.score_isSome
  due := hdue

end Runs

/-! ## Runs -/

/-- The ticks of a path with its attempts. -/
abbrev attemptedPath (mulF64 : Duration → ℚ → Duration) (mean : Duration) (start : Instant)
    (stagger : Duration) :
    Machine (ProbedPath × List Attempt) Tick :=
  (probedPath mulF64 mean start stagger).withHistory [] recordAttempts

/-- A tick whose send fails, with nothing drawn after it. -/
def failedTick (now : Instant) : Tick := ⟨now, [], 0, false, 0⟩

/-- With a mean below four nanoseconds the first probe, when its send fails, leaves the next one due
at once. -/
theorem failedTick_due (mulF64 : Duration → ℚ → Duration) {mean : Duration} (start : Instant)
    (stagger : Duration)
    (hmean : mean < 4) :
    ∃ x, (attemptedPath mulF64 mean start stagger).Reaches x ∧
      x.1.lastTick = some (start + stagger) ∧
      x.1.stats.outstanding = none ∧ x.1.stats.nextProbeAt = start + stagger := by
  have hsmall : ∀ mean < (4 : Nat), poissonInterval mean 0 = some 0 := by decide
  have hlosses : (1 : Nat) ≤ u32Max := by decide
  obtain ⟨stats, htick, hnone, hnext⟩ : ∃ stats,
      (TupleStats.new start stagger).tick mulF64 mean (failedTick (start + stagger)) = some stats ∧
        stats.outstanding = none ∧ stats.nextProbeAt = start + stagger := by
    simp [TupleStats.tick, TupleStats.expire, TupleStats.sendDue, failedTick, TupleStats.new,
      TupleStats.record,
      TupleStats.dead, deadConsecutiveLosses, hlosses, hsmall mean hmean]
  have hstep : (attemptedPath mulF64 mean start stagger).step
      (attemptedPath mulF64 mean start stagger).init
      (failedTick (start + stagger)) = some (⟨stats, some (start + stagger)⟩,
        recordAttempts ⟨.new start stagger, none⟩ (failedTick (start + stagger)) []) := by
    simp only [attemptedPath, Machine.withHistory, probedPath, Option.not_mem_none, false_imp_iff,
      implies_true,
      if_true, htick, Option.map_some]
    rfl
  exact ⟨_, ⟨_, .cons trivial hstep (.nil _)⟩, rfl, hnone, hnext⟩

/-- **Probe accounting.** Whatever comes in and whichever sends fail, at times that do not go back:
every attempt is turned into exactly one sample, and the counters, the score and the next probe go
by it. This holds in every state of every run exactly when the mean interval is at least four
nanoseconds. -/
theorem probe_accounting_iff (mulF64 : Duration → ℚ → Duration) (mean : Duration) (start : Instant)
    (stagger : Duration) :
    (∀ x, (attemptedPath mulF64 mean start stagger).Reaches x → ProbeAccounting x.1 x.2) ↔
      4 ≤ mean := by
  refine ⟨fun hall => ?_, fun hmean x hx => ?_⟩
  · by_contra hsmall
    obtain ⟨x, hx, hlast, hnone, hnext⟩ :=
      failedTick_due mulF64 start stagger (Nat.lt_of_not_le hsmall)
    rcases (hall x hx).due (start + stagger) hlast with hsome | hlt
    · rw [hnone] at hsome
      cases hsome
    · rw [hnext] at hlt
      exact Nat.lt_irrefl _ hlt
  · have hinv : ProbeInv x.1 x.2 ∧
        ∀ now ∈ x.1.lastTick, x.1.stats.outstanding.isSome = true ∨
          now < x.1.stats.nextProbeAt := by
      refine Machine.Reaches.invariant (I := fun x : ProbedPath × List Attempt => ProbeInv x.1 x.2 ∧
        ∀ now ∈ x.1.lastTick, x.1.stats.outstanding.isSome = true ∨ now < x.1.stats.nextProbeAt)
        ⟨probeInv_init start stagger, fun now hnow => (Option.not_mem_none now hnow).elim⟩ ?_ hx
      rintro ⟨s, attempts⟩ e ⟨s', attempts'⟩ ⟨hinv, -⟩ hst
      obtain ⟨hst, rfl⟩ := Machine.withHistory_step hst
      exact ⟨hinv.step hst, due_of_step hmean hst⟩
    exact hinv.1.accounting hinv.2

/-- A path probed every nanosecond, whose first send fails: the next probe is due at once. -/
theorem probe_due_at_once :
    ∃ x, (attemptedPath (fun d q => ((d : ℚ) * q).floor.toNat) 1 0 1).Reaches x ∧
      x.1.lastTick = some 1 ∧
      ¬ProbeAccounting x.1 x.2 := by
  obtain ⟨x, hx, hlast, hnone, hnext⟩ :=
    @failedTick_due (fun d q => ((d : ℚ) * q).floor.toNat) 1 0 1 (by decide)
  refine ⟨x, hx, hlast, fun h => ?_⟩
  rcases h.due 1 hlast with hsome | hlt
  · rw [hnone] at hsome
    cases hsome
  · rw [hnext] at hlt
    exact absurd hlt (by decide)

end RtpMux

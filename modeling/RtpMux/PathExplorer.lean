import RtpMux.Basic
import RtpMux.Margin
import Mathlib.Data.List.MinMax
import Mathlib.Data.Rat.Defs
import Mathlib.Tactic.NormNum

/-!
# Path scores and the migration verdict (`explorer/path_score.rs`, `explorer/mod.rs`)

The explorer probes candidate paths beside the active one and, asked for a verdict,
compares the cheapest measured candidate with the active path. A path score is a
round-trip time and a loss rate. A candidate wins by rtt (a quarter less rtt, at most
two points more loss) or by loss (ten points less loss, at most a quarter more rtt).

The source computes with `f64`; here the arithmetic is exact, over `ℚ`.

The margin rule is an instance of `RtpMux.Terms`: five wins by rtt pay for one win by
loss, and `(3/4)^5 * (5/4) < 1`. So no sequence of paths beats itself in a circle,
and a session whose paths keep their scores migrates fewer times than there are
paths (`no_migration_cycle`).
-/

namespace RtpMux

/-- `std::time::Duration`, in nanoseconds. -/
abbrev Duration : Type := Nat

/-- `Duration::as_secs_f64`, exactly. -/
def Duration.asSecs (d : Duration) : ℚ := (d : ℚ) / 1000000000

/-- `REOPT_RTT_MARGIN`. -/
def reoptRttMargin : ℚ := 1 / 4

/-- `REOPT_LOSS_MARGIN`. -/
def reoptLossMargin : ℚ := 1 / 10

/-- `REOPT_LOSS_TOLERANCE`. -/
def reoptLossTolerance : ℚ := 1 / 50

/-- `MigrationRule`. -/
inductive MigrationRule where
  | rtt
  | loss
  deriving DecidableEq, Repr

/-- `PathScore`. -/
structure PathScore where
  rtt : Duration
  loss : ℚ
  deriving DecidableEq, Repr

namespace PathScore

/-- `PathScore::cost`. -/
def cost (s : PathScore) : ℚ := Duration.asSecs s.rtt / max (1 - s.loss) (1 / 20)

/-- `PathScore::beats_by_margin`. -/
def beatsByMargin (s active : PathScore) : Option MigrationRule :=
  let rttWins := Duration.asSecs s.rtt ≤ Duration.asSecs active.rtt * (1 - reoptRttMargin)
    ∧ s.loss ≤ active.loss + reoptLossTolerance
  let lossWins := s.loss + reoptLossMargin ≤ active.loss
    ∧ Duration.asSecs s.rtt ≤ Duration.asSecs active.rtt * (1 + reoptRttMargin)
  match decide rttWins, decide lossWins with
  | true, _ => some .rtt
  | false, true => some .loss
  | false, false => none

end PathScore

/-- `MigrationVerdict`. -/
inductive MigrationVerdict where
  | migrate (rule : MigrationRule) (active best : PathScore)
  | activeUnmeasured
  | noLiveCandidate (active : PathScore)
  | withinMargin (active best : PathScore)
  deriving DecidableEq, Repr

/-- `DEAD_CONSECUTIVE_LOSSES`. -/
def deadConsecutiveLosses : Nat := 3

/-- `MIN_SAMPLES`. -/
def minSamples : Nat := 3

/-- `TupleStats`: what probing has measured of one path. -/
structure TupleStats where
  rtt : Option Duration
  loss : Option ℚ
  samples : Nat
  consecutiveLosses : Nat
  /-- nonce and send time of the probe that waits for its echo -/
  outstanding : Option (UInt64 × Instant)
  nextProbeAt : Instant
  deriving DecidableEq, Repr

namespace TupleStats

/-- `TupleStats::new`; `stagger` is the random part of the first probe's delay. -/
def new (now : Instant) (stagger : Duration) : TupleStats where
  rtt := none
  loss := none
  samples := 0
  consecutiveLosses := 0
  outstanding := none
  nextProbeAt := now + stagger

/-- `TupleStats::dead`. -/
def dead (t : TupleStats) : Bool := deadConsecutiveLosses ≤ t.consecutiveLosses

/-- `TupleStats::alive`. -/
def alive (t : TupleStats) : Bool := minSamples ≤ t.samples && t.rtt.isSome && !t.dead

/-- `TupleStats::score`. -/
def score (t : TupleStats) : Option PathScore :=
  if t.alive then t.rtt.map fun rtt => { rtt, loss := t.loss.getD 0 } else none

end TupleStats

/-- `Candidate`: a bound socket and what probing says about it. -/
structure Candidate (C : Type) where
  io : C
  localAddr : SocketAddr
  stats : TupleStats

/-- `ExplorerConfig`, as far as the explorer itself reads it. -/
structure ExplorerConfig where
  candidates : Nat
  probeMeanInterval : Duration
  rotationPeriod : Duration
  deriving DecidableEq, Repr

/-- `PathExplorer`. The active path probes through a channel of its own kind `D`. -/
structure PathExplorer (C D : Type) where
  config : ExplorerConfig
  candidates : List (Candidate C)
  active : Option (Candidate D)
  nextRotationAt : Instant
  refillAfter : Instant
  epoch : Instant

/-- `Vec::swap_remove`: the last element takes the place of the removed one. -/
def swapRemove {α : Type} (l : List α) (index : Nat) : List α :=
  match l.getLast? with
  | none => []
  | some last => (l.set index last).dropLast

namespace PathExplorer

variable {C D : Type}

/-- `PathExplorer::new`. -/
def new (config : ExplorerConfig) (now : Instant) : PathExplorer C D where
  config := config
  candidates := []
  active := none
  nextRotationAt := now + config.rotationPeriod
  refillAfter := now
  epoch := now

/-- `PathExplorer::deficit`. -/
def deficit (e : PathExplorer C D) : Nat := e.config.candidates - e.candidates.length

/-- `PathExplorer::defer_refill`. -/
def deferRefill (e : PathExplorer C D) (until_ : Instant) : PathExplorer C D :=
  { e with refillAfter := until_ }

/-- `PathExplorer::add_candidate`. -/
def addCandidate (e : PathExplorer C D) (io : C) (localAddr : SocketAddr) (now : Instant)
    (stagger : Duration) : PathExplorer C D :=
  { e with candidates := e.candidates ++ [⟨io, localAddr, .new now stagger⟩] }

/-- `PathExplorer::set_active`. -/
def setActive (e : PathExplorer C D) (active : Option (D × SocketAddr)) (now : Instant)
    (stagger : Duration) : PathExplorer C D :=
  { e with active := active.map fun (io, localAddr) => ⟨io, localAddr, .new now stagger⟩ }

/-- `PathExplorer::best_index`: the cheapest scored candidate, the first of equals. -/
def bestIndex (e : PathExplorer C D) : Option Nat :=
  let scored := e.candidates.zipIdx.filterMap fun (c, index) =>
    c.stats.score.map fun score => (index, score.cost)
  (scored.argmin Prod.snd).map Prod.fst

/-- `PathExplorer::best_score`. -/
def bestScore (e : PathExplorer C D) : Option PathScore :=
  e.bestIndex.bind fun index => e.candidates[index]?.bind fun c => c.stats.score

/-- `PathExplorer::pop_best`. -/
def popBest (e : PathExplorer C D) :
    Option (C × SocketAddr × PathScore) × PathExplorer C D :=
  match e.bestIndex with
  | none => (none, e)
  | some index =>
    let popped := e.candidates[index]?.bind fun c =>
      c.stats.score.map fun score => (c.io, c.localAddr, score)
    (popped, { e with candidates := swapRemove e.candidates index })

/-- The score of the active path, when it has been measured. -/
def activeScore (e : PathExplorer C D) : Option PathScore :=
  e.active.bind fun active => active.stats.score

/-- `PathExplorer::reoptimize_verdict`. -/
def reoptimizeVerdict (e : PathExplorer C D) : MigrationVerdict :=
  match e.activeScore with
  | none => .activeUnmeasured
  | some active =>
    match e.bestScore with
    | none => .noLiveCandidate active
    | some best =>
      match best.beatsByMargin active with
      | some rule => .migrate rule active best
      | none => .withinMargin active best

/-- The verdict in `e` sends the session to another path, and in `e'` that path is
the active one. -/
def MigratesTo (e e' : PathExplorer C D) : Prop :=
  ∃ rule active best, e.reoptimizeVerdict = .migrate rule active best
    ∧ e'.activeScore = some best

end PathExplorer

/-! ## The margin rule has no cycle -/

/-- The migration margins: five wins by rtt pay for one win by loss. -/
def reoptTerms : Terms ℚ where
  gain := 1 - reoptRttMargin
  give := reoptLossTolerance
  slack := 1 + reoptRttMargin
  drop := reoptLossMargin
  wins := 5
  gain_nonneg := by norm_num [reoptRttMargin]
  gain_lt_one := by norm_num [reoptRttMargin]
  slack_nonneg := by norm_num [reoptRttMargin]
  give_pos := by norm_num [reoptLossTolerance]
  pays := by norm_num [reoptLossTolerance, reoptLossMargin]
  profit := by norm_num [reoptRttMargin]

/-- `a` loses to `b` under the migration margins. -/
abbrev PathScore.LosesTo : PathScore → PathScore → Prop :=
  reoptTerms.LosesTo (fun s : PathScore => Duration.asSecs s.rtt) PathScore.loss

namespace PathScore

/-- `beats_by_margin` names a rule exactly when the other score loses. -/
theorem beatsByMargin_isSome {s active : PathScore} :
    (s.beatsByMargin active).isSome ↔ active.LosesTo s := by
  simp only [beatsByMargin, LosesTo, Terms.LosesTo, reoptTerms]
  split <;> simp_all

/-- A positive round trip is a positive number of seconds. -/
theorem asSecs_pos {s : PathScore} (h : 0 < s.rtt) : 0 < Duration.asSecs s.rtt :=
  div_pos (Nat.cast_pos.mpr h) (by norm_num)

/-- A score with positive rtt never loses to itself, through any number of wins. -/
theorem not_losesTo_self {s : PathScore} (h : 0 < s.rtt) : ¬ Relation.TransGen LosesTo s s :=
  Terms.acyclic (x := fun s : PathScore => Duration.asSecs s.rtt) (asSecs_pos h)

/-- A circle of wins brings its first score back to itself. -/
theorem transGen_of_circle {n : ℕ} {s : ℕ → PathScore} (hn : 1 ≤ n)
    (h : ∀ i < n, (s i).LosesTo (s ((i + 1) % n))) : Relation.TransGen LosesTo (s 0) (s 0) := by
  -- unrolled, the circle is the sequence `s (i % n)`
  have hseq : ∀ i < n, (s (i % n)).LosesTo (s ((i + 1) % n)) := by
    intro i hi
    rw [Nat.mod_eq_of_lt hi]
    exact h i hi
  have hchain := Terms.transGen_of_seq (s := fun i => s (i % n)) hseq hn le_rfl
  simpa using hchain

end PathScore

namespace PathExplorer

variable {C D : Type} {e e' : PathExplorer C D}

/-- The verdict reports the active path's own score. -/
theorem activeScore_of_verdict {rule : MigrationRule} {active best : PathScore}
    (h : e.reoptimizeVerdict = .migrate rule active best) :
    e.activeScore = some active ∧ best.beatsByMargin active = some rule := by
  simp only [reoptimizeVerdict] at h
  split at h
  · cases h
  · rename_i a ha
    split at h
    · cases h
    · split at h
      · rename_i b _ r hr
        cases h
        exact ⟨ha, hr⟩
      · cases h

/-- A migration leaves a score that loses to the one it goes to. -/
theorem MigratesTo.losesTo (h : e.MigratesTo e') :
    ∃ a b, e.activeScore = some a ∧ e'.activeScore = some b ∧ a.LosesTo b := by
  obtain ⟨rule, active, best, hv, hbest⟩ := h
  obtain ⟨hactive, hbeats⟩ := activeScore_of_verdict hv
  refine ⟨active, best, hactive, hbest, ?_⟩
  rw [← PathScore.beatsByMargin_isSome, hbeats]
  rfl

/-- Consecutive migrations read off a sequence of scores that lose one to the next. -/
theorem scores_of_migrations {E : ℕ → PathExplorer C D} {k : ℕ}
    (h : ∀ i < k, (E i).MigratesTo (E (i + 1))) {i : ℕ} (hi : i < k) :
    ((E i).activeScore.getD ⟨0, 0⟩).LosesTo ((E (i + 1)).activeScore.getD ⟨0, 0⟩) := by
  obtain ⟨a, b, ha, hb, hlose⟩ := (h i hi).losesTo
  simpa [ha, hb] using hlose

end PathExplorer

/-- **No migration ping-pong.** No sequence of scores with positive rtt, of any
length, beats itself in a circle by margins, whichever rules win at each place. And a
session that migrates verdict after verdict among a fixed set of measured paths does
so fewer times than there are paths. -/
theorem no_migration_cycle :
    (∀ (n : ℕ) (s : ℕ → PathScore), 1 ≤ n → (∀ i < n, 0 < (s i).rtt) →
      ¬ ∀ i < n, ((s ((i + 1) % n)).beatsByMargin (s i)).isSome) ∧
    (∀ (C D : Type) (P : Finset PathScore) (E : ℕ → PathExplorer C D) (k : ℕ),
      (∀ p ∈ P, 0 < p.rtt) → (∀ i ≤ k, ∃ p ∈ P, (E i).activeScore = some p) →
      (∀ i < k, (E i).MigratesTo (E (i + 1))) → k < P.card) := by
  constructor
  · intro n s hn hpos hcircle
    have hlose : ∀ i < n, (s i).LosesTo (s ((i + 1) % n)) :=
      fun i hi => PathScore.beatsByMargin_isSome.mp (hcircle i hi)
    exact PathScore.not_losesTo_self (hpos 0 hn) (PathScore.transGen_of_circle hn hlose)
  · intro C D P E k hpos hmem hmig
    refine Terms.chain_lt_card (s := fun i => (E i).activeScore.getD ⟨0, 0⟩) ?_
      (fun p hp => PathScore.asSecs_pos (hpos p hp))
      (fun i hi => PathExplorer.scores_of_migrations hmig hi)
    intro i hi
    obtain ⟨p, hp, hscore⟩ := hmem i hi
    simpa [hscore] using hp

/-- A path measured at `rtt` nanoseconds without loss. -/
def measuredPath (rtt : Duration) : Candidate Unit :=
  ⟨(), .v4 0 0, ⟨some rtt, some 0, 3, 0, none, 0⟩⟩

/-- A session on a half-second path beside one of three eighths, before its migration
and after it. -/
def migratingExplorer (i : ℕ) : PathExplorer Unit Unit :=
  let e : PathExplorer Unit Unit := .new ⟨8, 10000000000, 120000000000⟩ 0
  if i = 0 then
    { e with candidates := [measuredPath 375000000], active := some (measuredPath 500000000) }
  else
    { e with candidates := [measuredPath 500000000], active := some (measuredPath 375000000) }

/-- The two scores of `migratingExplorer` in turn. -/
def pingPong (i : ℕ) : PathScore := if i = 0 then ⟨500000000, 0⟩ else ⟨375000000, 0⟩

/-- Of two paths one is migrated to and the other not again. -/
theorem pingPong_stops :
    (∀ i < 2, 0 < (pingPong i).rtt) ∧
    (¬ ∀ i < 2, ((pingPong ((i + 1) % 2)).beatsByMargin (pingPong i)).isSome) ∧
    (migratingExplorer 0).MigratesTo (migratingExplorer 1) ∧
    1 < ({pingPong 0, pingPong 1} : Finset PathScore).card := by
  have hpos : ∀ i < 2, 0 < (pingPong i).rtt := by decide
  have hmig : (migratingExplorer 0).MigratesTo (migratingExplorer 1) :=
    ⟨.rtt, pingPong 0, pingPong 1, by decide +kernel, rfl⟩
  refine ⟨hpos, no_migration_cycle.1 2 pingPong (by decide) hpos, hmig, ?_⟩
  apply no_migration_cycle.2 Unit Unit {pingPong 0, pingPong 1} migratingExplorer 1
  · intro p hp
    simp only [Finset.mem_insert, Finset.mem_singleton] at hp
    rcases hp with rfl | rfl
    · exact hpos 0 (by decide)
    · exact hpos 1 (by decide)
  · intro i hi
    obtain rfl | rfl : i = 0 ∨ i = 1 := by omega
    · exact ⟨pingPong 0, by simp, rfl⟩
    · exact ⟨pingPong 1, by simp, rfl⟩
  · intro i hi
    obtain rfl : i = 0 := by omega
    exact hmig

end RtpMux

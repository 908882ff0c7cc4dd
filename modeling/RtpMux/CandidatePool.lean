import Mathlib.Order.WithBot
import RtpMux.ProbeAccounting

/-!
# The pool of candidate paths (`explorer/mod.rs`)

The explorer keeps as many candidate tuples as its configuration says. A refill binds new ones while
some are missing, a tick probes all of them and, when a rotation is due, retires the worst, and
`pop_best` hands out the best. A rotation counts a dead tuple as infinitely expensive, `pop_best`
leaves it out, and neither sees one that is still unmeasured.

Costs are of any linear order, which is all that the two choices read of them; `f64::INFINITY` is a
value above every cost, since every cost is finite.
-/

namespace RtpMux

/-! ## Choices by index -/

section

variable {α β : Type}

/-- The elements that have a value, by their index. -/
def indexed (f : α → Option β) (l : List α) : List (Nat × β) :=
  l.zipIdx.filterMap fun (a, index) => (f a).map fun b => (index, b)

theorem mem_indexed {f : α → Option β} {l : List α} {index : Nat} {b : β} :
    (index, b) ∈ indexed f l ↔ ∃ a, l[index]? = some a ∧ f a = some b := by
  simp only [indexed, List.mem_filterMap, Prod.exists, List.mem_zipIdx_iff_getElem?,
    Option.map_eq_some_iff,
    Prod.mk.injEq]
  constructor
  · rintro ⟨a, i, ha, b', hb, rfl, rfl⟩
    exact ⟨a, ha, hb⟩
  · rintro ⟨a, ha, hb⟩
    exact ⟨a, index, ha, b, hb, rfl, rfl⟩

/-- Nothing is lost by `swap_remove` but the element at the index. -/
theorem perm_swapRemove {l : List α} {index : Nat} {a : α} (h : l[index]? = some a) :
    l.Perm (a :: swapRemove l index) := by
  obtain ⟨front, last, rfl⟩ : ∃ front last, l = front ++ [last] := by
    refine (List.eq_nil_or_concat' l).resolve_left ?_
    rintro rfl
    cases h
  rw [swapRemove, List.getLast?_concat]
  dsimp only
  by_cases hindex : index < front.length
  · -- the last element takes the place
    obtain ⟨before, behind, rfl, rfl⟩ : ∃ before behind, front = before ++ a :: behind ∧
        before.length = index := by
      rw [List.getElem?_append_left hindex] at h
      obtain ⟨hlt, rfl⟩ := List.getElem?_eq_some_iff.1 h
      exact ⟨front.take index, front.drop (index + 1), by simp, by simp [hlt.le]⟩
    have hset : ((before ++ a :: behind) ++ [last]).set before.length last =
        (before ++ last :: behind) ++ [last] := by
      simp
    rw [hset, List.dropLast_concat]
    calc (before ++ a :: behind) ++ [last]
      _ = before ++ a :: (behind ++ [last]) := by simp
      _ |>.Perm (a :: (before ++ (behind ++ [last]))) := List.perm_middle
      _ |>.Perm (a :: (before ++ last :: behind)) :=
        ((List.perm_append_singleton last behind).append_left before).cons a
  · have hlast : index = front.length ∧ last = a := by
      rw [List.getElem?_append_right (Nat.le_of_not_lt hindex), List.getElem?_singleton] at h
      split at h
      · next hzero => exact ⟨by omega, Option.some.inj h⟩
      · cases h
    obtain ⟨rfl, rfl⟩ := hlast
    have hset : (front ++ [last]).set front.length last = front ++ [last] := by simp
    rw [hset, List.dropLast_concat]
    exact List.perm_append_singleton last front

end

namespace PathExplorer

variable {C D K : Type} [LinearOrder K] (cost : PathScore → K)

/-- `PathExplorer::best_index`, for any cost. -/
def bestIndexBy (e : PathExplorer C D) : Option Nat :=
  ((indexed (fun c => c.stats.score.map cost) e.candidates).argmin Prod.snd).map Prod.fst

theorem bestIndex_eq (e : PathExplorer C D) : e.bestIndex = e.bestIndexBy PathScore.cost := by
  simp only [bestIndex, bestIndexBy, indexed, Option.map_map, Function.comp_def]

/-- `PathExplorer::pop_best`, for any cost. -/
def popBestBy (e : PathExplorer C D) : Option (C × SocketAddr × PathScore) × PathExplorer C D :=
  match e.bestIndexBy cost with
  | none => (none, e)
  | some index =>
    let popped := e.candidates[index]?.bind fun c => c.stats.score.map fun score =>
      (c.io, c.localAddr, score)
    (popped, { e with candidates := swapRemove e.candidates index })

theorem popBest_eq (e : PathExplorer C D) : e.popBest = e.popBestBy PathScore.cost := by
  cases hindex : e.bestIndexBy PathScore.cost with
  | none => simp only [popBest, popBestBy, bestIndex_eq, hindex]
  | some index => simp only [popBest, popBestBy, bestIndex_eq, hindex]

/-- The cost of a tuple in a rotation. -/
def evictionCost (c : Candidate C) : Option (WithTop K) :=
  if c.stats.dead then some ⊤ else c.stats.score.map fun score => (cost score : WithTop K)

/-- The choice of `evict_worst`. `max_by` takes the last of equals. -/
def worstIndex (e : PathExplorer C D) : Option Nat :=
  ((indexed (evictionCost cost) e.candidates).reverse.argmax Prod.snd).map Prod.fst

/-- `PathExplorer::evict_worst`. -/
def evictWorst (e : PathExplorer C D) : PathExplorer C D :=
  if 0 < e.deficit then e
  else
    match e.worstIndex cost with
    | some index => { e with candidates := swapRemove e.candidates index }
    | none => e

end PathExplorer

/-- What chance and the network decide of a tick, for each candidate by its index and for the active
path. -/
structure Round where
  now : Instant
  probes : Nat → Tick
  active : Tick

/-- A socket that a refill has bound, when it is added, and the random part of its first delay. -/
structure Minted (C : Type) where
  io : C
  localAddr : SocketAddr
  now : Instant
  stagger : Duration

namespace PathExplorer

variable {C D K : Type} [LinearOrder K]

/-- The loop of `tick` over the candidates. -/
def tickCandidates (mulF64 : Duration → ℚ → Duration) (mean : Duration) (round : Round) :
    Nat → List (Candidate C) → Option (List (Candidate C))
  | _, [] => some []
  | index, c :: rest =>
    (c.stats.tick mulF64 mean { round.probes index with now := round.now }).bind fun stats =>
      (tickCandidates mulF64 mean round (index + 1) rest).map ({ c with stats } :: ·)

/-- The active path's part of `tick`. -/
def tickActive (mulF64 : Duration → ℚ → Duration) (mean : Duration) (round : Round) :
    Option (Candidate D) → Option (Option (Candidate D))
  | none => some none
  | some active =>
    (active.stats.tick mulF64 mean { round.active with now := round.now }).map fun stats =>
      some { active with stats }

/-- The probes of `tick`, or `none` where one panics. -/
def probe (mulF64 : Duration → ℚ → Duration) (e : PathExplorer C D) (round : Round) :
    Option (PathExplorer C D) :=
  (tickCandidates mulF64 e.config.probeMeanInterval round 0 e.candidates).bind fun candidates =>
    (tickActive mulF64 e.config.probeMeanInterval round e.active).map fun active =>
      { e with candidates, active }

/-- `PathExplorer::tick`. -/
def tick (mulF64 : Duration → ℚ → Duration) (cost : PathScore → K) (e : PathExplorer C D)
    (round : Round) :
    Option (PathExplorer C D) :=
  (e.probe mulF64 round).map fun e =>
    if e.nextRotationAt ≤ round.now then
      evictWorst cost { e with nextRotationAt := round.now + e.config.rotationPeriod }
    else e

/-- The loop of `refill_candidates`, with what each bind gives. -/
def refillLoop (mint : Nat → Option (Minted C)) (retryAt : Instant) : Nat → Nat → PathExplorer C D →
    PathExplorer C D
  | 0, _, e => e
  | fuel + 1, attempt, e =>
    if 0 < e.deficit then
      match mint attempt with
      | some minted =>
        refillLoop mint retryAt fuel (attempt + 1)
          (e.addCandidate minted.io minted.localAddr minted.now minted.stagger)
      | none => e.deferRefill retryAt
    else e

/-- `refill_candidates`. Every round binds one of the missing tuples or is the last. -/
def refillCandidates (e : PathExplorer C D) (mint : Nat → Option (Minted C)) (retryAt : Instant) :
    PathExplorer C D :=
  refillLoop mint retryAt e.deficit 0 e

end PathExplorer

/-! ## What a rotation and `pop_best` choose -/

/-- What a rotation does to a pool: it retires nothing, or one tuple of a full pool that is dead, or
the most expensive one if none is. -/
inductive PathExplorer.Rotates {C D K : Type} [LinearOrder K] (cost : PathScore → K)
    (e e' : PathExplorer C D) : Prop
  | keeps (same : e'.candidates = e.candidates)
      (spared : e.candidates.length < e.config.candidates ∨
        ∀ c ∈ e.candidates, c.stats.dead = false ∧ c.stats.score = none)
  | retires (c : Candidate C) (others : e.candidates.Perm (c :: e'.candidates))
      (full : e.config.candidates ≤ e.candidates.length)
      (worst : c.stats.dead = true ∨ (∀ d ∈ e.candidates, d.stats.dead = false) ∧
        ∃ score, c.stats.score = some score ∧
          ∀ d ∈ e.candidates, ∀ s, d.stats.score = some s → cost s ≤ cost score)

/-- What `pop_best` does: it hands out a tuple of least cost and leaves the others, or there is none
to hand out. -/
inductive PathExplorer.PopsBest {C D K : Type} [LinearOrder K] (cost : PathScore → K)
    (e : PathExplorer C D) : Prop
  | none (unscored : ∀ c ∈ e.candidates, c.stats.score = .none)
    (popped : e.popBestBy cost = (.none, e))
  | some (c : Candidate C) (score : PathScore) (e' : PathExplorer C D)
      (popped : e.popBestBy cost = (.some (c.io, c.localAddr, score), e'))
      (scored : c.stats.score = .some score)
      (best : ∀ d ∈ e.candidates, ∀ s, d.stats.score = .some s → cost score ≤ cost s)
      (others : e.candidates.Perm (c :: e'.candidates))

namespace PathExplorer

variable {C D K : Type} [LinearOrder K] {cost : PathScore → K} {e : PathExplorer C D}

/-- A tuple with a score is not dead. -/
theorem not_dead_of_score {t : TupleStats} {score : PathScore} (h : t.score = some score) :
    t.dead = false := by
  unfold TupleStats.score at h
  split at h
  · next halive =>
    simp only [TupleStats.alive, Bool.and_eq_true, Bool.not_eq_true'] at halive
    exact halive.2
  · cases h

/-- The choice of `best_index`. -/
theorem bestIndexBy_some {index : Nat} (h : e.bestIndexBy cost = some index) :
    ∃ c score, e.candidates[index]? = some c ∧ c.stats.score = some score ∧
      ∀ d ∈ e.candidates, ∀ s, d.stats.score = some s → cost score ≤ cost s := by
  obtain ⟨⟨i, k⟩, hargmin, rfl⟩ := Option.map_eq_some_iff.1 h
  obtain ⟨c, hc, hcost⟩ := mem_indexed.1 (List.argmin_mem hargmin)
  obtain ⟨score, hscore, rfl⟩ := Option.map_eq_some_iff.1 hcost
  refine ⟨c, score, hc, hscore, fun d hd s hs => ?_⟩
  obtain ⟨j, hj⟩ := List.mem_iff_getElem?.1 hd
  have hmem : (j, cost s) ∈ indexed (fun c => c.stats.score.map cost) e.candidates :=
    mem_indexed.2 ⟨d, hj, by rw [hs]; rfl⟩
  have hle := List.le_of_mem_argmin hmem hargmin
  exact hle

/-- Nothing is best where nothing has a score. -/
theorem bestIndexBy_none (h : e.bestIndexBy cost = none) :
    ∀ c ∈ e.candidates, c.stats.score = none := by
  intro c hc
  rw [bestIndexBy, Option.map_eq_none_iff, List.argmin_eq_none] at h
  obtain ⟨j, hj⟩ := List.mem_iff_getElem?.1 hc
  by_contra hscore
  obtain ⟨score, hscore⟩ := Option.ne_none_iff_exists'.1 hscore
  have hmem : (j, cost score) ∈ indexed (fun c => c.stats.score.map cost) e.candidates :=
    mem_indexed.2 ⟨c, hj, by rw [hscore]; rfl⟩
  rw [h] at hmem
  cases hmem

/-- **`pop_best`.** -/
theorem popsBest (e : PathExplorer C D) : PopsBest cost e := by
  cases hindex : e.bestIndexBy cost with
  | none => exact .none (bestIndexBy_none hindex) (by rw [popBestBy, hindex])
  | some index =>
    obtain ⟨c, score, hc, hscore, hbest⟩ := bestIndexBy_some hindex
    refine .some c score { e with candidates := swapRemove e.candidates index } ?_ hscore hbest
      (perm_swapRemove hc)
    simp only [popBestBy, hindex, hc, Option.bind_some, hscore, Option.map_some]

/-- The choice of `evict_worst`. -/
theorem worstIndex_some {index : Nat} (h : e.worstIndex cost = some index) :
    ∃ c, e.candidates[index]? = some c ∧
      (c.stats.dead = true ∨ (∀ d ∈ e.candidates, d.stats.dead = false) ∧
      ∃ score, c.stats.score = some score ∧
        ∀ d ∈ e.candidates, ∀ s, d.stats.score = some s → cost s ≤ cost score) := by
  obtain ⟨⟨i, k⟩, hargmax, rfl⟩ := Option.map_eq_some_iff.1 h
  obtain ⟨c, hc, hcost⟩ := mem_indexed.1 (List.mem_reverse.1 (List.argmax_mem hargmax))
  have hmost (d : Candidate C) (hd : d ∈ e.candidates) (k' : WithTop K)
      (hk : evictionCost cost d = some k') : k' ≤ k := by
    obtain ⟨j, hj⟩ := List.mem_iff_getElem?.1 hd
    exact List.le_of_mem_argmax (List.mem_reverse.2 (mem_indexed.2 ⟨d, hj, hk⟩)) hargmax
  refine ⟨c, hc, ?_⟩
  by_cases hdead : c.stats.dead = true
  · exact .inl hdead
  · rw [evictionCost, if_neg hdead] at hcost
    obtain ⟨score, hscore, rfl⟩ := Option.map_eq_some_iff.1 hcost
    refine .inr ⟨fun d hd => ?_, score, hscore, fun d hd s hs => ?_⟩
    · -- a dead tuple would be above every cost
      by_contra hnot
      have htop := hmost d hd ⊤ (by rw [evictionCost, if_pos (by simpa using hnot)])
      exact absurd htop (not_le_of_gt (WithTop.coe_lt_top _))
    · have hle := hmost d hd (cost s)
          (by rw [evictionCost, if_neg (by simp [not_dead_of_score hs]), hs]; rfl)
      exact WithTop.coe_le_coe.1 hle

/-- Nothing is worst where nothing is dead and nothing has a score. -/
theorem worstIndex_none (h : e.worstIndex cost = none) :
    ∀ c ∈ e.candidates, c.stats.dead = false ∧ c.stats.score = none := by
  intro c hc
  rw [worstIndex, Option.map_eq_none_iff, List.argmax_eq_none, List.reverse_eq_nil_iff] at h
  obtain ⟨j, hj⟩ := List.mem_iff_getElem?.1 hc
  have hcost : evictionCost cost c = none := by
    by_contra hsome
    obtain ⟨k, hk⟩ := Option.ne_none_iff_exists'.1 hsome
    have hmem := mem_indexed.2 ⟨c, hj, hk⟩
    rw [h] at hmem
    cases hmem
  by_cases hdead : c.stats.dead = true
  · simp [evictionCost, hdead] at hcost
  · simpa [evictionCost, hdead] using hcost

/-- **A rotation.** -/
theorem rotates (cost : PathScore → K) (e : PathExplorer C D) :
    Rotates cost e (e.evictWorst cost) := by
  unfold evictWorst
  by_cases hdeficit : 0 < e.deficit
  · rw [if_pos hdeficit]
    exact .keeps rfl (.inl (by unfold deficit at hdeficit; omega))
  · rw [if_neg hdeficit]
    cases hindex : e.worstIndex cost with
    | none => exact .keeps rfl (.inr (worstIndex_none hindex))
    | some index =>
      obtain ⟨c, hc, hworst⟩ := worstIndex_some hindex
      exact .retires c (perm_swapRemove hc) (by unfold deficit at hdeficit; omega) hworst

/-- A rotation takes the tuple that `pop_best` would hand out only where no tuple is dead and all
scored ones cost the same. -/
theorem worst_eq_best {index : Nat} (hworst : e.worstIndex cost = some index)
    (hbest : e.bestIndexBy cost = some index) :
    (∀ d ∈ e.candidates, d.stats.dead = false) ∧
      ∀ c ∈ e.candidates, ∀ d ∈ e.candidates, ∀ s s', c.stats.score = some s →
        d.stats.score = some s' →
        cost s = cost s' := by
  obtain ⟨c, score, hc, hscore, hleast⟩ := bestIndexBy_some hbest
  obtain ⟨c', hc', hcases⟩ := worstIndex_some hworst
  obtain rfl : c = c' := Option.some.inj (hc.symm.trans hc')
  have hlive := not_dead_of_score hscore
  rcases hcases with hdead | ⟨hnone, score', hscore', hmost⟩
  · rw [hlive] at hdead
    cases hdead
  · obtain rfl : score = score' := Option.some.inj (hscore.symm.trans hscore')
    have hsame (d : Candidate C) (hd : d ∈ e.candidates) (s : PathScore)
        (hs : d.stats.score = some s) :
        cost s = cost score :=
      le_antisymm (hmost d hd s hs) (hleast d hd s hs)
    exact ⟨hnone, fun a ha d hd s s' hs hs' => (hsame a ha s hs).trans (hsame d hd s' hs').symm⟩

end PathExplorer

/-! ## Runs -/

/-- What is done to an explorer. -/
inductive PoolEvent (C D : Type) where
  | refill (mint : Nat → Option (Minted C)) (retryAt : Instant)
  | tick (round : Round)
  | popBest
  | setActive (active : Option (D × SocketAddr)) (now : Instant) (stagger : Duration)

/-- The operations of an explorer, in any order. -/
def candidatePool {C D K : Type} [LinearOrder K] (mulF64 : Duration → ℚ → Duration)
    (cost : PathScore → K)
    (config : ExplorerConfig) (start : Instant) : Machine (PathExplorer C D) (PoolEvent C D) where
  init := .new config start
  step e event :=
    match event with
    | .refill mint retryAt => some (e.refillCandidates mint retryAt)
    | .tick round => e.tick mulF64 cost round
    | .popBest => some (e.popBestBy cost).2
    | .setActive active now stagger => some (e.setActive active now stagger)

/-- The pool holds no more tuples than it is to hold. -/
structure PathExplorer.Bounded {C D : Type} (config : ExplorerConfig) (e : PathExplorer C D) :
    Prop where
  configured : e.config = config
  length : e.candidates.length ≤ config.candidates

/-- The tuples of a pool and the same ones after their probes. -/
def PathExplorer.SameTuples {C : Type} : List (Candidate C) → List (Candidate C) → Prop :=
  List.Forall₂ fun c c' => c'.io = c.io ∧ c'.localAddr = c.localAddr

/-- What a tick does to a pool: it probes every tuple, and rotates when that is due. -/
structure PathExplorer.Ticks {C D K : Type} [LinearOrder K] (cost : PathScore → K) (round : Round)
    (e probed e' : PathExplorer C D) :
    Prop where
  tuples : PathExplorer.SameTuples e.candidates probed.candidates
  config : probed.config = e.config
  rests : round.now < e.nextRotationAt → e'.candidates = probed.candidates
  rotates : e.nextRotationAt ≤ round.now → PathExplorer.Rotates cost probed e'

namespace PathExplorer

variable {C D K : Type} [LinearOrder K] {mulF64 : Duration → ℚ → Duration} {cost : PathScore → K}
  {config : ExplorerConfig} {e e' : PathExplorer C D}

theorem tickCandidates_same {mean : Duration} {round : Round} {index : Nat}
    {l l' : List (Candidate C)}
    (h : tickCandidates mulF64 mean round index l = some l') : SameTuples l l' := by
  induction l generalizing index l' with
  | nil =>
    cases h
    exact .nil
  | cons c l ih =>
    obtain ⟨stats, -, hmap⟩ := Option.bind_eq_some_iff.1 h
    obtain ⟨rest, hrest, rfl⟩ := Option.map_eq_some_iff.1 hmap
    exact .cons ⟨rfl, rfl⟩ (ih hrest)

/-- Probing changes neither the tuples nor when the next rotation is due. -/
theorem probe_spec {round : Round} (h : e.probe mulF64 round = some e') :
    SameTuples e.candidates e'.candidates ∧ e'.config = e.config ∧
      e'.nextRotationAt = e.nextRotationAt := by
  obtain ⟨candidates, hcandidates, hactive⟩ := Option.bind_eq_some_iff.1 h
  obtain ⟨active, -, rfl⟩ := Option.map_eq_some_iff.1 hactive
  exact ⟨tickCandidates_same hcandidates, rfl, rfl⟩

theorem evictWorst_config (cost : PathScore → K) (e : PathExplorer C D) :
    (e.evictWorst cost).config = e.config := by
  unfold evictWorst
  split
  · rfl
  · split <;> rfl

/-- A rotation looks at the pool alone. -/
theorem Rotates.of_candidates {e₀ : PathExplorer C D} (h : Rotates cost e e')
    (hcandidates : e₀.candidates = e.candidates)
    (hconfig : e₀.config = e.config) : Rotates cost e₀ e' := by
  cases h with
  | keeps same spared =>
    rw [← hcandidates] at same spared
    rw [← hconfig] at spared
    exact .keeps same spared
  | retires c others full worst =>
    rw [← hcandidates] at others full worst
    rw [← hconfig] at full
    exact .retires c others full worst

/-- What a tick does: it probes, and then it may rotate. -/
theorem ticks_of_tick {round : Round} (h : e.tick mulF64 cost round = some e') :
    ∃ probed, e.probe mulF64 round = some probed ∧ Ticks cost round e probed e' ∧
      e'.config = e.config := by
  obtain ⟨probed, hprobe, rfl⟩ := Option.map_eq_some_iff.1 h
  obtain ⟨htuples, hconfig, hrotation⟩ := probe_spec hprobe
  refine ⟨probed, hprobe, ⟨htuples, hconfig, fun hearly => ?_, fun hdue => ?_⟩, ?_⟩
  · rw [if_neg (by rw [hrotation]; exact not_le_of_gt hearly)]
  · rw [if_pos (by rw [hrotation]; exact hdue)]
    exact (rotates cost _).of_candidates rfl rfl
  · split
    · rw [evictWorst_config]
      exact hconfig
    · exact hconfig

/-- A rotation adds nothing. -/
theorem Rotates.length_le (h : Rotates cost e e') : e'.candidates.length ≤ e.candidates.length := by
  cases h with
  | keeps same _ => rw [same]
  | retires c others _ _ =>
    rw [others.length_eq, List.length_cons]
    omega

/-- A tick adds no tuple. -/
theorem Ticks.length_le {round : Round} {probed : PathExplorer C D}
    (h : Ticks cost round e probed e') :
    e'.candidates.length ≤ e.candidates.length := by
  have hprobed : probed.candidates.length = e.candidates.length := h.tuples.length_eq.symm
  rcases lt_or_ge round.now e.nextRotationAt with hearly | hdue
  · rw [h.rests hearly, hprobed]
  · exact (h.rotates hdue).length_le.trans hprobed.le

/-- A refill stops at the size of the pool. -/
theorem bounded_refillLoop {mint : Nat → Option (Minted C)} {retryAt : Instant} (fuel attempt : Nat)
    (h : Bounded config e) : Bounded config (refillLoop mint retryAt fuel attempt e) := by
  induction fuel generalizing attempt e with
  | zero => exact h
  | succ fuel ih =>
    rw [refillLoop]
    split
    · next hdeficit =>
      split
      · next minted _ =>
        refine ih _ ⟨h.configured, ?_⟩
        simp only [addCandidate, List.length_append, List.length_singleton]
        unfold deficit at hdeficit
        rw [h.configured] at hdeficit
        omega
      · exact ⟨h.configured, h.length⟩
    · exact h

/-- The loop of a refill ends by itself: no tuple is missing, or a bind has failed. -/
theorem refillLoop_ends (mint : Nat → Option (Minted C)) (retryAt : Instant) (fuel attempt : Nat)
    (h : e.deficit ≤ fuel) :
    (refillLoop mint retryAt fuel attempt e).deficit = 0 ∨ ∃ n, mint n = none := by
  induction fuel generalizing attempt e with
  | zero => exact .inl (Nat.le_zero.1 h)
  | succ fuel ih =>
    rw [refillLoop]
    split
    · next hdeficit =>
      cases hmint : mint attempt with
      | none => exact .inr ⟨attempt, hmint⟩
      | some minted =>
        refine ih _ ?_
        simp only [deficit, addCandidate, List.length_append, List.length_singleton] at h ⊢
        omega
    · exact .inl (by omega)

/-- A refill leaves no deficit, unless a tuple could not be bound. -/
theorem refillCandidates_ends (e : PathExplorer C D) (mint : Nat → Option (Minted C))
    (retryAt : Instant) :
    (e.refillCandidates mint retryAt).deficit = 0 ∨ ∃ n, mint n = none :=
  refillLoop_ends mint retryAt e.deficit 0 le_rfl

theorem popBestBy_config (cost : PathScore → K) (e : PathExplorer C D) :
    (e.popBestBy cost).2.config = e.config := by
  unfold popBestBy
  split <;> rfl

theorem bounded_popBestBy (h : Bounded config e) : Bounded config (e.popBestBy cost).2 := by
  refine ⟨(popBestBy_config cost e).trans h.configured, le_trans ?_ h.length⟩
  cases @popsBest C D K _ cost e with
  | none _ popped => rw [popped]
  | some c score e' popped _ _ others =>
    rw [popped, others.length_eq, List.length_cons]
    exact Nat.le_succ _

/-- Every step keeps the pool within its size. -/
theorem bounded_step {start : Instant} {event : PoolEvent C D} (h : Bounded config e)
    (hstep : (candidatePool mulF64 cost config start).step e event = some e') :
    Bounded config e' := by
  cases event with
  | refill mint retryAt =>
    obtain rfl := Option.some.inj hstep
    exact bounded_refillLoop _ _ h
  | tick round =>
    obtain ⟨probed, -, hticks, hconfig⟩ := ticks_of_tick hstep
    exact ⟨hconfig.trans h.configured, hticks.length_le.trans h.length⟩
  | popBest =>
    obtain rfl := Option.some.inj hstep
    exact bounded_popBestBy h
  | setActive active now stagger =>
    obtain rfl := Option.some.inj hstep
    exact ⟨h.configured, h.length⟩

/-- **The pool.** In every state that refills, ticks, `pop_best` and `set_active` lead to, the pool
holds no more tuples than it is to hold. A tick probes them and, when one is due, makes one
rotation: it retires a dead tuple of a full pool if there is one, or else one of greatest cost, and
never an unmeasured one. It takes the tuple that `pop_best` would hand out, one of least cost, only
where none is dead and all scored ones cost the same. -/
theorem candidate_pool_discipline (mulF64 : Duration → ℚ → Duration) (cost : PathScore → K)
    (config : ExplorerConfig)
    (start : Instant) {e : PathExplorer C D}
    (h : (candidatePool mulF64 cost config start).Reaches e) :
    e.candidates.length ≤ config.candidates ∧
    (∀ round e', e.tick mulF64 cost round = some e' →
      ∃ probed, e.probe mulF64 round = some probed ∧ Ticks cost round e probed e' ∧
        ∀ index, probed.worstIndex cost = some index → probed.bestIndexBy cost = some index →
          (∀ d ∈ probed.candidates, d.stats.dead = false) ∧
            ∀ c ∈ probed.candidates, ∀ d ∈ probed.candidates, ∀ s s', c.stats.score = some s →
              d.stats.score = some s' → cost s = cost s') ∧
    PopsBest cost e := by
  have hbounded : Bounded config e :=
    h.invariant ⟨rfl, Nat.zero_le _⟩ fun _ _ _ hbounded hstep => bounded_step hbounded hstep
  refine ⟨hbounded.length, fun round e' htick => ?_, popsBest e⟩
  obtain ⟨probed, hprobe, hticks, -⟩ := ticks_of_tick htick
  exact ⟨probed, hprobe, hticks, fun index => worst_eq_best⟩

end PathExplorer

/-- `Duration::mul_f64`, for the products that are whole. -/
def wholeProduct (d : Duration) (factor : ℚ) : Duration := ((d : ℚ) * factor).floor.toNat

/-- Every probe of the first of two tuples is echoed at the next round, and of the second one at an
even round. -/
def echoRound (now : Instant) (second : Bool) : Round where
  now := now
  probes index := ⟨now, if index = 0 ∨ second then [1] else [], 1, true, 0⟩
  active := ⟨now, [], 1, true, 0⟩

/-- A refill of two tuples, and enough rounds to measure both. -/
def measuringRun : List (PoolEvent Bool Unit) :=
  [.refill (fun attempt => some ⟨attempt = 0, .v4 attempt 0, 0, 0⟩) 0,
    .tick (echoRound 0 false), .tick (echoRound 10 false), .tick (echoRound 20 true),
    .tick (echoRound 30 false), .tick (echoRound 40 true), .tick (echoRound 50 false),
    .tick (echoRound 60 true)]

/-- The slower of two measured tuples is retired by the round in which a rotation is due, and
`pop_best` hands out the faster one. -/
theorem candidate_pool_discipline_rotated :
    ∃ e e' : PathExplorer Bool Unit,
      (candidatePool wholeProduct PathScore.cost ⟨2, 40, 70⟩ 0).Reaches e ∧
      e.candidates.map (·.stats.score) = [some ⟨10, 0⟩, some ⟨20, 0⟩] ∧
      e.tick wholeProduct PathScore.cost (echoRound 70 false) = some e' ∧
      e'.candidates.map (·.io) = [true] ∧
      e.popBest.1 = some (true, .v4 0 0, ⟨10, 0⟩) ∧ e.candidates.length ≤ 2 ∧
      (∃ probed, e.probe wholeProduct (echoRound 70 false) = some probed ∧
        PathExplorer.Ticks PathScore.cost (echoRound 70 false) e probed e') ∧
      PathExplorer.PopsBest PathScore.cost e := by
  have hrun : ∃ e e' : PathExplorer Bool Unit,
      (candidatePool wholeProduct PathScore.cost ⟨2, 40, 70⟩ 0).Reaches e ∧
      e.candidates.map (·.stats.score) = [some ⟨10, 0⟩, some ⟨20, 0⟩] ∧
      e.tick wholeProduct PathScore.cost (echoRound 70 false) = some e' ∧
      e'.candidates.map (·.io) = [true] ∧ e.popBest.1 = some (true, .v4 0 0, ⟨10, 0⟩) :=
    ⟨_, _, ⟨measuringRun, Machine.run_of_exec rfl⟩, by decide +kernel, rfl, by decide +kernel,
      by decide +kernel⟩
  obtain ⟨e, e', hreaches, hscores, htick, hkept, hpopped⟩ := hrun
  obtain ⟨hlength, hticks, hpops⟩ := PathExplorer.candidate_pool_discipline wholeProduct
    PathScore.cost _ 0 hreaches
  obtain ⟨probed, hprobe, hrotates, -⟩ := hticks _ e' htick
  exact ⟨e, e', hreaches, hscores, htick, hkept, hpopped, hlength,
    ⟨probed, hprobe, hrotates⟩, hpops⟩

end RtpMux

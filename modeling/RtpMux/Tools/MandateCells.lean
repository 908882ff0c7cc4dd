import RtpMux.Tools.MandateCompare

/-!
# More cells keep the tooth

The claims of an arm's cells form a chain, idle below unstated below claimed, and the precedence
search of `arm_claim` finds the strongest one. A stronger claim can only make more falls
regressions: idle lanes are never compared, an unstated lane is compared above its floor, and a
claimed lane is compared always. So a regression that an arm's cells let through stays one when
cells are added, wherever in the list they are put. An arm without any cell is not in the chain: it
counts as unstated, and its first cell may declare the lane idle.
-/

namespace RtpMux.MandateCompare

/-! ## The chain of claims -/

/-- How much a claim lets be compared. -/
def Claim.strength : Claim → Nat
  | .idle => 0
  | .unstated => 1
  | .claimed => 2

theorem Claim.strength_injective : Function.Injective Claim.strength := by
  intro a b h
  cases a <;> cases b <;> first | rfl | cases h

/-- The strongest claim among cells. -/
def strongest (key : String) (cells : List String) : Nat :=
  cells.foldr (fun cell rest => max (cellClaim cell key).1.strength rest) 0

/-- No cell's claim is stronger than the strongest. -/
theorem le_strongest {key cell : String} {cells : List String} (h : cell ∈ cells) :
    (cellClaim cell key).1.strength ≤ strongest key cells := by
  induction cells with
  | nil => cases h
  | cons first rest ih =>
    rcases List.mem_cons.mp h with rfl | h
    · exact Nat.le_max_left _ _
    · exact (ih h).trans (Nat.le_max_right _ _)

/-- The strongest claim is a bound if every cell's is. -/
theorem strongest_le {key : String} {cells : List String} {bound : Nat}
    (h : ∀ cell ∈ cells, (cellClaim cell key).1.strength ≤ bound) :
    strongest key cells ≤ bound := by
  induction cells with
  | nil => exact Nat.zero_le _
  | cons first rest ih =>
    exact Nat.max_le.mpr ⟨h first List.mem_cons_self,
      ih fun cell hcell => h cell (List.mem_cons_of_mem first hcell)⟩

/-- More cells have a stronger claim. -/
theorem strongest_mono {key : String} {cells cells' : List String} (h : cells ⊆ cells') :
    strongest key cells ≤ strongest key cells' :=
  strongest_le fun _ hcell => le_strongest (h hcell)

/-- **The precedence finds the strongest claim.** -/
theorem armClaim_strength {arm : Json} (key : String) (hcells : armCells arm ≠ []) :
    (armClaim arm key).1.strength = strongest key (armCells arm) := by
  have htop : ∀ claim : Claim, claim.strength ≤ 2 := fun claim => by cases claim <;> decide
  have hnot : ∀ {wanted : Claim}, (¬ ∃ cell ∈ armCells arm, (cellClaim cell key).1 = wanted) →
      ∀ cell ∈ armCells arm, (cellClaim cell key).1 ≠ wanted :=
        fun h cell hcell heq => h ⟨cell, hcell, heq⟩
  refine Nat.le_antisymm ?_ ?_
  all_goals rcases armClaim_cases arm key with ⟨hclaims, hclaim⟩ | ⟨⟨hclaims, hsilent⟩, hclaim⟩ |
    ⟨hclaims, hsilent, hclaim⟩ <;> rw [hclaim]
  · obtain ⟨cell, hcell, heq⟩ := hclaims
    exact heq ▸ le_strongest hcell
  · obtain ⟨cell, hcell, heq⟩ := hsilent.resolve_left hcells
    exact heq ▸ le_strongest hcell
  · exact Nat.zero_le _
  · exact strongest_le fun cell _ => htop _
  · refine strongest_le fun cell hcell => ?_
    have hne := hnot hclaims cell hcell
    cases hcase : (cellClaim cell key).1 with
    | claimed => exact absurd hcase hne
    | _ => decide
  · refine strongest_le fun cell hcell => ?_
    have hne := hnot hclaims cell hcell
    cases hcase : (cellClaim cell key).1 with
    | claimed => exact absurd hcase hne
    | unstated => exact absurd ⟨hclaims, .inr ⟨cell, hcell, hcase⟩⟩ hsilent
    | idle => decide

/-- The claim depends on which cells there are, not on where they stand. -/
theorem armClaim_perm {arm arm' : Json} (key : String) (h : (armCells arm).Perm (armCells arm')) :
    (armClaim arm key).1 = (armClaim arm' key).1 := by
  by_cases hcells : armCells arm = []
  · have hcells' : armCells arm' = [] := List.nil_perm.mp (hcells ▸ h)
    simp [armClaim, hcells, hcells']
  · have hcells' : armCells arm' ≠ [] := fun h' => hcells (List.perm_nil.mp (h' ▸ h))
    refine Claim.strength_injective ?_
    rw [armClaim_strength key hcells, armClaim_strength key hcells']
    exact Nat.le_antisymm (strongest_mono h.subset) (strongest_mono h.symm.subset)

/-! ## One counter -/

/-- A counter is not measured any more, or fell past the tolerance. -/
def FallsPast (tolerance : ℚ) (baseline : Scalar) (candidate : Option Scalar) : Prop :=
  match measured candidate with
  | none => True
  | some value =>
    match relativeChange baseline value with
    | none => False
    | some change => change ≤ -tolerance

/-- The baseline is below the floor of a counter. -/
def InsideFloor (key : String) (baseline : Scalar) : Prop :=
  floorBytes key ≠ 0 ∧ (baseline.number.any fun (value : ℚ) => value < floorBytes key) = true

section Counter

variable {formats : Formats} {key : String} {baseline : Scalar} {candidate : Option Scalar}
  {tolerance : ℚ}
  {claim : Claim} {why : String}

/-- The floor a claim leaves a counter. -/
def Claim.floor (claim : Claim) (key : String) : Nat :=
  if claim = .unstated then floorBytes key else 0

/-- **What the claim decides.** -/
theorem laneCounter_regression_iff :
    (compareCounter formats key baseline candidate tolerance claim (claim.floor key) why).1 =
      some .regression ↔
      FallsPast tolerance baseline candidate ∧
        (claim = .claimed ∨ claim = .unstated ∧ ¬ InsideFloor key baseline) := by
  by_cases hidle : claim = .idle
  · simp only [compareCounter, hidle, if_true]
    split
    · simp
    · split <;> simp
  -- the claim is one of the other two, and the floor is that of the key if it is unstated
  have hinside : (claim = .unstated ∧ claim.floor key ≠ 0 ∧
      (baseline.number.any fun (value : ℚ) => value < claim.floor key) = true) ↔
      ¬ (claim = .claimed ∨ claim = .unstated ∧ ¬ InsideFloor key baseline) := by
    unfold InsideFloor
    cases claim with
    | idle => exact absurd rfl hidle
    | claimed => simp
    | unstated => simp [Claim.floor]
  simp only [compareCounter, if_neg hidle, FallsPast]
  cases measured candidate with
  | none =>
    simp only [true_and]
    split <;> rename_i hin
    · exact iff_of_false (fun h => by cases h) (hinside.mp hin)
    · exact iff_of_true rfl (not_not.mp fun h => hin (hinside.mpr h))
  | some value =>
    simp only
    cases relativeChange baseline value with
    | none =>
      simp only [false_and, iff_false]
      split <;> simp
    | some change =>
      simp only
      split
      · rename_i hfall
        simp only [hfall, true_and]
        split <;> rename_i hin
        · exact iff_of_false (fun h => by cases h) (hinside.mp hin)
        · exact iff_of_true rfl (not_not.mp fun h => hin (hinside.mpr h))
      · rename_i hfall
        simp only [hfall, false_and, iff_false]
        split <;> simp

/-- A stronger claim keeps a regression. -/
theorem laneCounter_mono {claim' : Claim} (why' : String)
    (hclaim : claim.strength ≤ claim'.strength)
    (h : (compareCounter formats key baseline candidate tolerance claim (claim.floor key) why).1 =
      some .regression) :
    (compareCounter formats key baseline candidate tolerance claim' (claim'.floor key) why').1 =
      some .regression := by
  rw [laneCounter_regression_iff] at h ⊢
  obtain ⟨hfalls, rfl | ⟨rfl, hfloor⟩⟩ := h
  · refine ⟨hfalls, .inl ?_⟩
    cases claim' with
    | claimed => rfl
    | unstated => cases Nat.lt_irrefl _ hclaim
    | idle => cases Nat.not_lt_zero _ hclaim
  · refine ⟨hfalls, ?_⟩
    cases claim' with
    | claimed => exact .inl rfl
    | unstated => exact .inr ⟨rfl, hfloor⟩
    | idle => cases Nat.not_lt_zero _ hclaim

end Counter

/-! ## The reported texts -/

/-- A text is about a key: it begins with the key and a blank. -/
def About (key text : String) : Prop := key.toList ++ [' '] <+: text.toList

theorem About.key (key : String) : About key (key ++ " ") := by
  unfold About
  rw [String.toList_append]
  exact List.prefix_refl _

/-- A text about a key goes on about it. -/
theorem About.append {key text : String} (h : About key text) (rest : String) :
    About key (text ++ rest) := by
  unfold About
  rw [String.toList_append]
  exact List.IsPrefix.trans h (List.prefix_append _ _)

/-- A text is about one key only. -/
theorem About.unique {key key' text : String} (h : About key text) (h' : About key' text)
    (hkey : ' ' ∉ key.toList) (hkey' : ' ' ∉ key'.toList) : key = key' := by
  have hword : ∀ {key : String}, About key text → ' ' ∉ key.toList →
      text.toList.takeWhile (· ≠ ' ') = key.toList := by
    rintro key ⟨rest, hrest⟩ hblank
    rw [← hrest, List.append_assoc, List.takeWhile_append_of_pos]
    · simp
    · intro c hc
      simp only [ne_eq, decide_not, Bool.not_eq_true', decide_eq_false_iff_not]
      rintro rfl
      exact hblank hc
  exact String.toList_inj.mp ((hword h hkey).symm.trans (hword h' hkey'))

section Texts

variable {formats : Formats} {key : String} {baseline : Scalar} {candidate : Option Scalar}
  {tolerance : ℚ}

/-- A counter's regression is about its key. -/
theorem counter_about {claim : Claim} {floor : Nat} {why : String} :
    (compareCounter formats key baseline candidate tolerance claim floor why).1 = some .regression →
      About key (compareCounter formats key baseline candidate tolerance claim floor why).2 := by
  unfold compareCounter
  dsimp only
  split
  · split
    · exact nofun
    · split <;> exact nofun
  · split
    · split
      · exact nofun
      · intro _
        dsimp only
        exact (About.key key |>.append _).append _
    · split
      · split <;> exact nofun
      · split
        · split
          · exact nofun
          · intro _
            dsimp only
            have hpair := (((About.key key).append (baseline.display formats)).append " -> ").append
            exact ((((((hpair _).append _).append _).append _).append _).append _).append _
        · split <;> exact nofun

/-- A statistic's regression is about its key. -/
theorem stat_about :
    (compareStat formats key baseline candidate tolerance).1 = some .regression →
      About key (compareStat formats key baseline candidate tolerance).2 := by
  unfold compareStat
  dsimp only
  split
  · intro _
    dsimp only
    exact (About.key key |>.append _).append _
  · split
    · exact nofun
    · split <;> exact nofun

/-- A delivery's regression is about the delivery. -/
theorem delivery_about :
    (compareDelivery formats baseline candidate tolerance).1 = some .regression →
      About "delivery" (compareDelivery formats baseline candidate tolerance).2 := by
  have hkey : About "delivery" "delivery " := About.key "delivery"
  unfold compareDelivery
  dsimp only
  split
  · intro _
    dsimp only
    exact (hkey.append _).append _
  · split
    · exact nofun
    · split
      · intro _
        dsimp only
        have hpair := ((hkey.append (baseline.display formats)).append " -> ").append
        exact ((((((hpair _).append _).append _).append _).append _).append _).append _
      · exact nofun

end Texts

theorem mem_record_regressions {comparison : Option Outcome × String} {text : String}
    (h : text ∈ (record comparison).regressions) : comparison = (some .regression, text) := by
  obtain ⟨outcome, text'⟩ := comparison
  cases outcome with
  | none => cases h
  | some outcome =>
    cases outcome with
    | regression =>
      obtain rfl := List.mem_singleton.mp h
      rfl
    | _ => cases h

/-- A recorded regression is about its key. -/
theorem record_about {comparison : Option Outcome × String} {key text : String}
    (h : text ∈ (record comparison).regressions)
    (habout : comparison.1 = some .regression → About key comparison.2) : About key text := by
  obtain rfl := mem_record_regressions h
  exact habout rfl

/-! ## One arm -/

/-- The comparison of an arm reports a regression of a quantity. -/
def ArmChanges.Loses (changes : ArmChanges) (key : String) : Prop :=
  ∃ text ∈ changes.regressions, About key text

section Arm

variable {formats : Formats} {tolerances : Tolerances} {baselineArm candidateArm : Json}

theorem window_about {tolerance : ℚ} {key text : String}
    (h : text ∈ (compareWindow formats baselineArm candidateArm tolerance key).regressions) :
    About key text := by
  unfold compareWindow at h
  split at h
  · cases h
  · exact record_about h counter_about

theorem samples_about {text : String}
    (h : text ∈ (compareSamples formats tolerances baselineArm candidateArm).regressions) :
    About "sample_count" text := by
  unfold compareSamples at h
  split at h
  · cases h
  · exact record_about h counter_about

theorem statistic_about {key text : String}
    (h : text ∈ (compareStatistic formats tolerances baselineArm candidateArm key).regressions) :
    About key text := by
  unfold compareStatistic at h
  split at h
  · cases h
  · exact record_about h stat_about

theorem ratio_about {text : String}
    (h : text ∈ (compareRatio formats tolerances baselineArm candidateArm).regressions) :
    About "delivery" text := by
  unfold compareRatio at h
  split at h
  · cases h
  · exact record_about h delivery_about

/-- A lane counter regresses as its claim says. -/
theorem mem_laneCounter_regressions {key text : String} :
    text ∈ (compareLaneCounter formats tolerances baselineArm candidateArm key).regressions ↔
      ∃ value, numbers formats (baselineArm.get "counters") key = some value ∧
        compareCounter formats key value (numbers formats (candidateArm.get "counters") key)
          tolerances.count
          (armClaim baselineArm key).1 ((armClaim baselineArm key).1.floor key)
            (armClaim baselineArm key).2.1 =
        (some .regression, text) := by
  unfold compareLaneCounter
  cases numbers formats (baselineArm.get "counters") key with
  | none => simp
  | some value =>
    simp only [Option.some.injEq, exists_eq_left']
    constructor
    · exact mem_record_regressions
    · intro h
      change text ∈ (record
        (compareCounter formats key value _ tolerances.count _ ((armClaim baselineArm key).1.floor
        key) _)).regressions
      rw [h]
      exact List.mem_singleton_self text

/-- The quantities that are compared without looking at the cells. -/
def otherKeys : List String :=
  ["sample_count", "delivery"] ++ coverageWindowKeys ++ coverageWallKeys ++ valueStatKeys

/-- No counter's key has a blank. -/
theorem counterKeys_no_blank :
    coverageCounterKeys.all (fun key => !key.toList.contains ' ') = true := by
  decide

/-- No other key is a counter's. -/
theorem otherKeys_no_counter :
    otherKeys.all (fun key => !key.toList.contains ' ' && !coverageCounterKeys.contains key) =
      true := by
  decide

/-- **A regression of a lane counter** is reported by its own comparison. -/
theorem compareArm_loses_iff {key : String} (hkey : key ∈ coverageCounterKeys) :
    (compareArm formats tolerances baselineArm candidateArm).Loses key ↔
      ∃ text, text ∈ (compareLaneCounter formats tolerances baselineArm candidateArm
        key).regressions := by
  have hblank : ∀ {key}, key ∈ coverageCounterKeys → ' ' ∉ key.toList := by
    intro key hkey
    simpa using List.all_eq_true.mp counterKeys_no_blank key hkey
  have hlane : ∀ {key text}, text ∈ (compareLaneCounter formats tolerances baselineArm candidateArm
      key).regressions → About key text := by
    intro key text htext
    obtain ⟨value, -, hcounter⟩ := mem_laneCounter_regressions.mp htext
    have habout := counter_about (congrArg Prod.fst hcounter)
    rwa [hcounter] at habout
  simp only [ArmChanges.Loses, compareArm, ArmChanges.all, List.mem_flatMap, List.mem_append,
    List.mem_singleton,
    List.mem_map]
  constructor
  · rintro ⟨text, ⟨part, hpart, htext⟩, habout⟩
    have hother : ∀ {key'}, key' ∈ otherKeys → ¬ About key' text := by
      intro key' hkey' habout'
      have hfacts := List.all_eq_true.mp otherKeys_no_counter key' hkey'
      simp only [Bool.and_eq_true, Bool.not_eq_true', List.contains_eq_mem,
        decide_eq_false_iff_not] at hfacts
      obtain rfl := habout.unique habout' (hblank hkey) hfacts.1
      exact hfacts.2 hkey
    rcases hpart with ((((rfl | ⟨key', hkey', rfl⟩) | ⟨key', hkey', rfl⟩) | ⟨key', hkey', rfl⟩) |
      ⟨key', hkey', rfl⟩) | rfl
    · exact absurd (samples_about htext) (hother (by simp [otherKeys]))
    · obtain rfl := habout.unique (hlane htext) (hblank hkey) (hblank hkey')
      exact ⟨text, htext⟩
    · exact absurd (window_about htext) (hother (by simp [otherKeys, hkey']))
    · exact absurd (window_about htext) (hother (by simp [otherKeys, hkey']))
    · exact absurd (statistic_about htext) (hother (by simp [otherKeys, hkey']))
    · exact absurd (ratio_about htext) (hother (by simp [otherKeys]))
  · rintro ⟨text, htext⟩
    exact ⟨text, ⟨_, .inl (.inl (.inl (.inl (.inr ⟨key, hkey, rfl⟩)))), htext⟩, hlane htext⟩

end Arm

/-- The second arm is the first with cells added to its list, at any positions. -/
structure CellsAdded (arm arm' : Json) : Prop where
  others : ∀ key, key ≠ "cells" → arm'.get key = arm.get key
  cells : (armCells arm).Sublist (armCells arm')

/-- **More cells keep the tooth.** -/
theorem added_cells_keep_regressions (formats : Formats) (tolerances : Tolerances)
    (candidateArm : Json) :
    (∀ arm arm' key, key ∈ coverageCounterKeys → armCells arm ≠ [] → CellsAdded arm arm' →
      (compareArm formats tolerances arm candidateArm).Loses key →
      (compareArm formats tolerances arm' candidateArm).Loses key) ∧
    ∀ arm arm' key, (armCells arm).Perm (armCells arm') →
      (armClaim arm key).1 = (armClaim arm' key).1 := by
  refine ⟨?_, fun arm arm' key => armClaim_perm key⟩
  intro arm arm' key hkey hcells hadded hloses
  rw [compareArm_loses_iff hkey] at hloses ⊢
  obtain ⟨text, htext⟩ := hloses
  obtain ⟨value, hvalue, hcounter⟩ := mem_laneCounter_regressions.mp htext
  have hcells' : armCells arm' ≠ [] := fun h => hcells (List.sublist_nil.mp (h ▸ hadded.cells))
  have hstrength : (armClaim arm key).1.strength ≤ (armClaim arm' key).1.strength := by
    rw [armClaim_strength key hcells, armClaim_strength key hcells']
    exact strongest_mono hadded.cells.subset
  have hregression :=
    laneCounter_mono (armClaim arm' key).2.1 hstrength (congrArg Prod.fst hcounter)
  refine ⟨_, mem_laneCounter_regressions.mpr ⟨value, ?_, Prod.ext hregression rfl⟩⟩
  rw [hadded.others "counters" (by decide), hvalue]

/-- An arm that sent so many bytes on the bulk lane, with these cells. -/
def bulkArm (bytes : Int) (cells : List String) : Json :=
  .object [("counters", .object [("bulk_wire_bytes", .int bytes)]),
    ("cells", .array (cells.map .str))]

/-- A silent cell leaves the lane compared above its floor, and a cell before it that declares the
lane idle changes nothing. -/
theorem added_idle_cell_keeps_regression :
    (compareArm plainFormats halfTolerances (bulkArm 70000 ["m@proto=udp"]) (bulkArm 10 [])).Loses
      "bulk_wire_bytes" ∧
    (compareArm plainFormats halfTolerances (bulkArm 70000 ["m@bulk=none", "m@proto=udp"])
      (bulkArm 10 [])).Loses
      "bulk_wire_bytes" := by
  have hloses : (compareArm plainFormats halfTolerances (bulkArm 70000 ["m@proto=udp"])
      (bulkArm 10 [])).Loses
      "bulk_wire_bytes" := by
    rw [compareArm_loses_iff (by decide)]
    refine ⟨_, mem_laneCounter_regressions.mpr ⟨.num ⟨true, 70000⟩, rfl, Prod.ext ?_ rfl⟩⟩
    decide +kernel
  refine ⟨hloses, (added_cells_keep_regressions plainFormats halfTolerances (bulkArm 10 [])).1
    (bulkArm 70000 ["m@proto=udp"]) (bulkArm 70000 ["m@bulk=none", "m@proto=udp"]) "bulk_wire_bytes"
      (by decide)
    (by decide) ⟨?_, ?_⟩ hloses⟩
  · intro key hkey
    simp [bulkArm, Json.get, Json.asObject, List.lookup_cons, beq_false_of_ne hkey]
  · exact List.sublist_cons_self "m@bulk=none" ["m@proto=udp"]

end RtpMux.MandateCompare

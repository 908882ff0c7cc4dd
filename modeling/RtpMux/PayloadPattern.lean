import Mathlib.Data.Nat.Periodic
import Mathlib.Data.List.Basic
import RtpMux.Offsets

/-!
# The payload verifier of the testing kit (`testkit/mux_over_rtp.rs`)

The sinks of the kit check a stream of bytes as it arrives: byte `i` is `i` modulo 251. A verifier
keeps the phase of the next byte only, and compares what it is given, in chunks, with windows into
one table of the pattern.

A slice that is out of bounds panics, which is `none` here. A phase is below the period, so that no
sum of the source comes near the bounds of `usize`.
-/

namespace RtpMux

/-! ## Lists that follow a sequence -/

section Follows

variable {α : Type*} {f : Nat → α} {start : Nat} {l l' : List α}

/-- A list holds the values of a sequence from a place on. -/
def Follows (f : Nat → α) (start : Nat) (l : List α) : Prop :=
  l = (List.range' start l.length).map f

instance [DecidableEq α] : Decidable (Follows f start l) :=
  inferInstanceAs (Decidable (l = (List.range' start l.length).map f))

/-- A list follows the pattern if each of its bytes is the one of its place. -/
theorem follows_iff : Follows f start l ↔ ∀ i b, l[i]? = some b → b = f (start + i) := by
  constructor
  · intro h i b hb
    rw [h] at hb
    obtain ⟨j, hj, rfl⟩ := List.getElem?_eq_some_iff.mp hb
    simp
  · intro h
    refine List.ext_getElem (by simp) fun i hi _ => ?_
    rw [List.getElem_map, List.getElem_range', one_mul]
    exact h i _ (List.getElem?_eq_getElem hi)

/-- Two pieces follow the pattern one after the other. -/
theorem follows_append : Follows f start (l ++ l') ↔ Follows f start l ∧ Follows f
    (start + l.length) l' := by
  unfold Follows
  rw [List.length_append, ← List.range'_append_1, List.map_append]
  constructor
  · intro h
    exact List.append_inj h (by simp)
  · rintro ⟨h, h'⟩
    rw [← h, ← h']

theorem follows_nil : Follows f start ([] : List α) := rfl

/-- Where a periodic sequence is entered matters up to its period. -/
theorem follows_mod {period : Nat} (hf : Function.Periodic f period) :
    Follows f (start % period) l ↔ Follows f start l := by
  rw [follows_iff, follows_iff]
  refine forall_congr' fun i => forall_congr' fun b => imp_congr_right fun _ => ?_
  rw [← hf.map_mod_nat, ← hf.map_mod_nat (start + i), Nat.mod_add_mod]

end Follows

/-! ## The verifier -/

/-- `PAYLOAD_PATTERN_PERIOD`. -/
def payloadPatternPeriod : Nat := 251

/-- `PAYLOAD_VERIFY_CHUNK_BYTES`. -/
def payloadVerifyChunkBytes : Nat := 64 * 1024

/-- The bytes of the payload. -/
def payloadByte (i : Nat) : UInt8 := UInt8.ofNat (i % payloadPatternPeriod)

/-- `PAYLOAD_VERIFY_WINDOW`: a chunk from every phase on. -/
def payloadVerifyWindow : List UInt8 :=
  (List.range (payloadVerifyChunkBytes + payloadPatternPeriod - 1)).map payloadByte

/-- `PayloadPatternVerifier`. -/
structure PayloadPatternVerifier where
  phase : Nat
  phase_lt : phase < payloadPatternPeriod
  deriving DecidableEq, Repr

namespace PayloadPatternVerifier

instance : Inhabited PayloadPatternVerifier := ⟨⟨0, by decide⟩⟩

/-- The loop of `verify`: whether every chunk from `compared` on is the pattern's. -/
def verifyLoop (phase : Nat) (actual : List UInt8) (compared : Nat) : Option Bool :=
  if _h : compared < actual.length then do
    let chunkLen := min (actual.length - compared) payloadVerifyChunkBytes
    let patternStart := (phase + compared % payloadPatternPeriod) % payloadPatternPeriod
    let chunk ← slice? actual compared (compared + chunkLen)
    let pattern ← slice? payloadVerifyWindow patternStart (patternStart + chunkLen)
    if chunk ≠ pattern then some false else verifyLoop phase actual (compared + chunkLen)
  else some true
termination_by actual.length - compared
decreasing_by
  have hpos : 0 < payloadVerifyChunkBytes := by decide
  omega

/-- `verify`. -/
def verify (v : PayloadPatternVerifier) (actual : List UInt8) :
    Option (Bool × PayloadPatternVerifier) := do
  let matched ← verifyLoop v.phase actual 0
  if matched then
    some (true, ⟨(v.phase + actual.length % payloadPatternPeriod) % payloadPatternPeriod,
      Nat.mod_lt _ (by decide)⟩)
  else some (false, v)

/-- Successive calls: what each of them returned, and the verifier they leave. -/
def verifyAll (v : PayloadPatternVerifier) :
    List (List UInt8) → Option (List Bool × PayloadPatternVerifier)
  | [] => some ([], v)
  | piece :: pieces => do
    let (result, v) ← v.verify piece
    let (results, v) ← v.verifyAll pieces
    some (result :: results, v)

/-! ## What a call does -/

/-- The pattern repeats. -/
theorem payloadByte_periodic : Function.Periodic payloadByte payloadPatternPeriod := by
  intro i
  rw [payloadByte, payloadByte, Nat.add_mod_right]

/-- Every window that begins at a phase and is a chunk at most is inside the table. -/
theorem slice?_window {start n : Nat} (hstart : start < payloadPatternPeriod)
    (hn : n ≤ payloadVerifyChunkBytes) :
    slice? payloadVerifyWindow start (start + n) =
      some ((List.range' start n).map payloadByte) := by
  have hlength : payloadVerifyWindow.length = payloadVerifyChunkBytes +
      payloadPatternPeriod - 1 := by
    simp [payloadVerifyWindow]
  rw [slice?, if_pos ⟨Nat.le_add_right _ _, by omega⟩, Nat.add_sub_cancel_left, payloadVerifyWindow,
    List.range_eq_range', ← List.map_drop, ← List.map_take, List.drop_range',
    List.take_range'_of_length_ge (by omega)]
  simp

/-- A chunk inside the pattern's table. -/
theorem slice?_chunk {l : List UInt8} {start n : Nat} (h : start + n ≤ l.length) :
    slice? l start (start + n) = some ((l.drop start).take n) := by
  rw [slice?, if_pos ⟨Nat.le_add_right _ _, h⟩, Nat.add_sub_cancel_left]

/-- The loop decides whether the rest is the pattern's, from its phase on. -/
theorem verifyLoop_eq (phase : Nat) (actual : List UInt8) (compared : Nat) :
    verifyLoop phase actual compared =
      some (decide (Follows payloadByte (phase + compared) (actual.drop compared))) := by
  fun_induction verifyLoop phase actual compared with
  | case1 compared hlt chunkLen patternStart ih =>
    have hmost : chunkLen ≤ payloadVerifyChunkBytes := Nat.min_le_right _ _
    have hinside : compared + chunkLen ≤ actual.length := by
      have := Nat.min_le_left (actual.length - compared) payloadVerifyChunkBytes
      omega
    have hstart : patternStart = (phase + compared) % payloadPatternPeriod := Nat.add_mod_mod _ _ _
    -- the rest is this chunk and what the loop goes on with
    have hsplit : actual.drop compared = (actual.drop compared).take chunkLen ++
        actual.drop (compared + chunkLen) := by
      rw [← List.drop_drop, List.take_append_drop]
    have hlength : ((actual.drop compared).take chunkLen).length = chunkLen := by
      rw [List.length_take, List.length_drop]
      omega
    have hrest : Follows payloadByte (phase + compared) (actual.drop compared) ↔
        (actual.drop compared).take chunkLen = (List.range' patternStart chunkLen).map payloadByte ∧
          Follows payloadByte (phase + (compared + chunkLen))
            (actual.drop (compared + chunkLen)) := by
      conv_lhs => rw [hsplit]
      rw [follows_append, ← follows_mod payloadByte_periodic, ← hstart, Follows, hlength,
        Nat.add_assoc]
    rw [slice?_chunk hinside, slice?_window (hstart ▸ Nat.mod_lt _ (by decide)) hmost, ih]
    simp only [Option.bind_eq_bind, Option.bind_some, hrest]
    split
    · next hne => simp [hne]
    · next heq => simp [not_not.mp heq]
  | case2 compared hge =>
    rw [List.drop_of_length_le (by omega)]
    simp [follows_nil]

/-- A piece that follows the pattern is verified, and the phase moves on. -/
theorem verify_of_follows {v : PayloadPatternVerifier} {actual : List UInt8}
    (h : Follows payloadByte v.phase actual) :
    ∃ v', v.verify actual = some (true, v') ∧
      v'.phase = (v.phase + actual.length) % payloadPatternPeriod := by
  refine ⟨⟨_, Nat.mod_lt _ (by decide)⟩, ?_, Nat.add_mod_mod _ _ _⟩
  rw [verify, verifyLoop_eq]
  simp [h]

/-- A call that fails leaves the verifier as it was. -/
theorem verify_of_not_follows {v : PayloadPatternVerifier} {actual : List UInt8}
    (h : ¬ Follows payloadByte v.phase actual) : v.verify actual = some (false, v) := by
  rw [verify, verifyLoop_eq]
  simp [h]

/-! ## What a run does -/

/-- A run over the pieces, one call at a time. -/
theorem verifyAll_cons {v v' v'' : PayloadPatternVerifier} {piece : List UInt8}
    {pieces : List (List UInt8)}
    {result : Bool} {results : List Bool} (hcall : v.verify piece = some (result, v'))
    (hrun : v'.verifyAll pieces = some (results, v'')) :
    v.verifyAll (piece :: pieces) = some (result :: results, v'') := by
  rw [verifyAll, hcall]
  simp only [Option.bind_eq_bind, Option.bind_some]
  rw [hrun]
  rfl

/-- Successive calls all return, and read one stream from the phase of the first. -/
theorem verifyAll_eq (v : PayloadPatternVerifier) (pieces : List (List UInt8)) :
    ∃ results v', v.verifyAll pieces = some (results, v') ∧ results.length = pieces.length ∧
      ((∀ result ∈ results, result = true) ↔ Follows payloadByte v.phase pieces.flatten) := by
  induction pieces generalizing v with
  | nil => exact ⟨[], v, rfl, rfl, by simp [follows_nil]⟩
  | cons piece pieces ih =>
    by_cases hpiece : Follows payloadByte v.phase piece
    · obtain ⟨next, hcall, hphase⟩ := verify_of_follows hpiece
      obtain ⟨results, v', hrun, hlength, hall⟩ := ih next
      refine ⟨true :: results, v', verifyAll_cons hcall hrun, congrArg (· + 1) hlength, ?_⟩
      rw [List.forall_mem_cons, hall, List.flatten_cons, follows_append, hphase,
        follows_mod payloadByte_periodic]
      simp [hpiece]
    · -- the run goes on with the phase it had, but has failed already
      obtain ⟨results, v', hrun, hlength, -⟩ := ih v
      refine ⟨false :: results, v', verifyAll_cons (verify_of_not_follows hpiece) hrun,
        congrArg (· + 1) hlength, ?_⟩
      rw [List.forall_mem_cons, List.flatten_cons, follows_append]
      simp [hpiece]

/-- **Payload verification is independent of chunking.** However a stream is cut into the calls of a
fresh verifier, no slice is out of bounds, and all calls succeed just if every byte is its index
modulo 251. A call that fails leaves the phase. -/
theorem verify_independent_of_chunking (pieces : List (List UInt8)) :
    ∃ results v, (default : PayloadPatternVerifier).verifyAll pieces = some (results, v) ∧
      results.length = pieces.length ∧
        ((∀ result ∈ results, result = true) ↔
          ∀ i b, pieces.flatten[i]? = some b → b = UInt8.ofNat (i % payloadPatternPeriod)) ∧
        ∀ piece, ∃ result v', v.verify piece = some (result, v') ∧
          (result = false → v'.phase = v.phase) := by
  obtain ⟨results, v, hrun, hlength, hall⟩ := verifyAll_eq default pieces
  refine ⟨results, v, hrun, hlength, ?_, ?_⟩
  · rw [hall, follows_iff]
    refine forall_congr' fun i => forall_congr' fun b => imp_congr_right fun _ => ?_
    rw [show (default : PayloadPatternVerifier).phase + i = i from Nat.zero_add i]
    rfl
  · intro piece
    by_cases hpiece : Follows payloadByte v.phase piece
    · obtain ⟨v', hcall, -⟩ := verify_of_follows hpiece
      exact ⟨true, v', hcall, fun h => nomatch h⟩
    · exact ⟨false, v, verify_of_not_follows hpiece, fun _ => rfl⟩

end PayloadPatternVerifier

end RtpMux

import RtpMux.HashMap
import RtpMux.Machine
import RtpMux.WriteHalf

/-!
# Session byte counters (`byte_count.rs`)

A session counts the bytes of its lanes in two atomic counters. Every lane half is wrapped in a
`Counted`, which polls the inner half and then adds what was moved to the counter of its direction.
The halves belong to different tasks: between the inner poll of one and its `fetch_add` the others
go on, and the statistics may be read at any time.

A poll of a `Counted` is two steps here, the inner poll and the addition; `adding` is the number in
between. `movedTx` and `movedRx` have what the inner halves moved, as natural numbers, and are read
by no step.
-/

namespace RtpMux

/-- A `Counted` half: the direction of its `CounterTarget`, and the addition it is about to make. -/
structure ByteCount.Counted where
  rx : Bool
  adding : Option Nat
  deriving DecidableEq, Repr

/-- `SessionByteCounters` with the halves that count into it. -/
structure SessionByteCounters where
  txBytes : Nat
  rxBytes : Nat
  halves : HashMap Nat ByteCount.Counted
  movedTx : Nat
  movedRx : Nat

/-- One step of one half. -/
inductive CountEvent where
  | countRead (half : Nat)
  | countWrite (half : Nat)
  /-- the inner `poll_read`: how much of the buffer was filled before and after -/
  | pollRead (half before after : Nat) (ready : Bool)
  /-- the inner `poll_write` or `poll_write_vectored` -/
  | pollWrite (half : Nat) (polled : Poll (Except IoError Nat))
  /-- `CounterTarget::add` -/
  | add (half : Nat)

namespace SessionByteCounters

/-- `SessionByteCounters::default`. -/
def default : SessionByteCounters := ⟨0, 0, ∅, 0, 0⟩

/-- `count_read` and `count_write`. -/
def count (s : SessionByteCounters) (half : Nat) (rx : Bool) : Option SessionByteCounters :=
  if half ∈ s.halves then none else some { s with halves := s.halves.insert half ⟨rx, none⟩ }

/-- `Counted::poll_read`, up to the addition. A poll that is ready counts even if it failed. -/
def pollRead (s : SessionByteCounters) (half before after : Nat) (ready : Bool) :
    Option SessionByteCounters :=
  match s.halves.lookup half with
  | some ⟨true, none⟩ =>
    if ready then
      some { s with
        halves := s.halves.insert half ⟨true, some (after - before)⟩
        movedRx := s.movedRx + (after - before) }
    else some s
  | _ => none

/-- `Counted::poll_write` and `Counted::poll_write_vectored`, up to the addition. -/
def pollWrite (s : SessionByteCounters) (half : Nat) (polled : Poll (Except IoError Nat)) :
    Option SessionByteCounters :=
  match s.halves.lookup half with
  | some ⟨false, none⟩ =>
    match polled with
    | .ready (.ok written) =>
      some { s with
        halves := s.halves.insert half ⟨false, some written⟩
        movedTx := s.movedTx + written }
    | _ => some s
  | _ => none

/-- `CounterTarget::add`: `fetch_add` wraps around. -/
def add (s : SessionByteCounters) (half : Nat) : Option SessionByteCounters :=
  match s.halves.lookup half with
  | some ⟨rx, some bytes⟩ =>
    let s := { s with halves := s.halves.insert half ⟨rx, none⟩ }
    if rx then some { s with rxBytes := (s.rxBytes + bytes) % 2 ^ 64 }
    else some { s with txBytes := (s.txBytes + bytes) % 2 ^ 64 }
  | _ => none

/-- One step. -/
def step (s : SessionByteCounters) : CountEvent → Option SessionByteCounters
  | .countRead half => s.count half true
  | .countWrite half => s.count half false
  | .pollRead half before after ready => s.pollRead half before after ready
  | .pollWrite half polled => s.pollWrite half polled
  | .add half => s.add half

/-- What the halves of a direction are about to add. -/
def inFlight (s : SessionByteCounters) (rx : Bool) : Nat :=
  s.halves.total fun half => if half.rx = rx then half.adding.getD 0 else 0

end SessionByteCounters

/-- The counters as a machine. -/
def byteCounters : Machine SessionByteCounters CountEvent :=
  ⟨SessionByteCounters.default, SessionByteCounters.step⟩

/-! ## The counters and the bytes -/

/-- What was moved in a direction is counted or about to be; the counter has what was counted. -/
def CounterHas (counter inFlight moved : Nat) : Prop :=
  ∃ counted, counter = counted % 2 ^ 64 ∧ counted + inFlight = moved

/-- The invariant of the counters. -/
structure CountInv (s : SessionByteCounters) : Prop where
  tx : CounterHas s.txBytes (s.inFlight false) s.movedTx
  rx : CounterHas s.rxBytes (s.inFlight true) s.movedRx

/-- Bytes that were moved and not yet added are in flight. -/
theorem CounterHas.polled {counter inFlight inFlight' moved bytes : Nat}
    (h : CounterHas counter inFlight moved)
    (hflight : inFlight' = bytes + inFlight) : CounterHas counter inFlight' (moved + bytes) := by
  obtain ⟨counted, hcounter, hmoved⟩ := h
  exact ⟨counted, hcounter, by omega⟩

/-- The counter takes what was in flight, modulo its width. -/
theorem CounterHas.added {counter inFlight inFlight' moved bytes : Nat}
    (h : CounterHas counter inFlight moved)
    (hflight : bytes + inFlight' = inFlight) :
    CounterHas ((counter + bytes) % 2 ^ 64) inFlight' moved := by
  obtain ⟨counted, rfl, hmoved⟩ := h
  exact ⟨counted + bytes, Nat.mod_add_mod _ _ _, by omega⟩

section

variable {s s' : SessionByteCounters}

/-- What a half is about to add in a direction. -/
def ByteCount.Counted.share (rx : Bool) (half : ByteCount.Counted) : Nat :=
  if half.rx = rx then half.adding.getD 0 else 0

/-- Only the half that is replaced changes what is in flight. -/
theorem inFlight_insert {half : Nat} {old : ByteCount.Counted} (new : ByteCount.Counted) (rx : Bool)
    (h : s.halves.lookup half = some old) :
    old.share rx + SessionByteCounters.inFlight { s with halves := s.halves.insert half new } rx =
      new.share rx + s.inFlight rx :=
  HashMap.total_insert (f := ByteCount.Counted.share rx) new h

theorem CountInv.count (h : CountInv s) {half : Nat} {rx : Bool} (hst : s.count half rx = some s') :
    CountInv s' := by
  unfold SessionByteCounters.count at hst
  split at hst
  · cases hst
  · rename_i hnew
    obtain rfl := Option.some.inj hst
    have hflight : ∀ d, SessionByteCounters.inFlight
        { s with halves := s.halves.insert half ⟨rx, none⟩ } d = s.inFlight d := by
      intro d
      simp only [SessionByteCounters.inFlight]
      rw [HashMap.total_insert_new _ (AList.lookup_eq_none.mpr hnew)]
      simp
    exact ⟨by rw [hflight]; exact h.tx, by rw [hflight]; exact h.rx⟩

/-- A poll that moved `bytes`: they are in flight in the half's direction, and in no other. -/
theorem inFlight_polled {half : Nat} {rx : Bool} (bytes : Nat)
    (h : s.halves.lookup half = some ⟨rx, none⟩) :
    SessionByteCounters.inFlight { s with halves := s.halves.insert half ⟨rx, some bytes⟩ } rx =
        bytes + s.inFlight rx ∧
      SessionByteCounters.inFlight { s with
        halves := s.halves.insert half ⟨rx, some bytes⟩ } (!rx) =
        s.inFlight (!rx) := by
  have hsame := inFlight_insert ⟨rx, some bytes⟩ rx h
  have hother := inFlight_insert ⟨rx, some bytes⟩ (!rx) h
  cases rx <;> simp_all [ByteCount.Counted.share]

theorem CountInv.pollRead (h : CountInv s) {half before after : Nat} {ready : Bool}
    (hst : s.pollRead half before after ready = some s') : CountInv s' := by
  unfold SessionByteCounters.pollRead at hst
  split at hst
  · rename_i hhalf
    split at hst
    · obtain rfl := Option.some.inj hst
      obtain ⟨hsame, hother⟩ := inFlight_polled (after - before) hhalf
      exact ⟨hother.symm ▸ h.tx, h.rx.polled hsame⟩
    · obtain rfl := Option.some.inj hst
      exact h
  · cases hst

theorem CountInv.pollWrite (h : CountInv s) {half : Nat} {polled : Poll (Except IoError Nat)}
    (hst : s.pollWrite half polled = some s') : CountInv s' := by
  unfold SessionByteCounters.pollWrite at hst
  split at hst
  · rename_i hhalf
    split at hst
    · rename_i written
      obtain rfl := Option.some.inj hst
      obtain ⟨hsame, hother⟩ := inFlight_polled written hhalf
      exact ⟨h.tx.polled hsame, hother.symm ▸ h.rx⟩
    · obtain rfl := Option.some.inj hst
      exact h
  · cases hst

theorem CountInv.add (h : CountInv s) {half : Nat} (hst : s.add half = some s') : CountInv s' := by
  unfold SessionByteCounters.add at hst
  split at hst
  · rename_i rx bytes hhalf
    have htx := inFlight_insert ⟨rx, none⟩ false hhalf
    have hrx := inFlight_insert ⟨rx, none⟩ true hhalf
    cases rx with
    | true =>
      obtain rfl := Option.some.inj hst
      simp only [ByteCount.Counted.share, Bool.true_eq_false, if_false, if_true, Option.getD_some,
        Option.getD_none, Nat.zero_add] at htx hrx
      exact ⟨htx.symm ▸ h.tx, h.rx.added hrx⟩
    | false =>
      obtain rfl := Option.some.inj hst
      simp only [ByteCount.Counted.share, Bool.false_eq_true, if_false, if_true, Option.getD_some,
        Option.getD_none, Nat.zero_add] at htx hrx
      exact ⟨h.tx.added htx, hrx.symm ▸ h.rx⟩
  · cases hst

/-- The counters account for the moved bytes in every run. -/
theorem countInv_of_reaches (h : byteCounters.Reaches s) : CountInv s := by
  refine h.invariant ⟨⟨0, rfl, rfl⟩, ⟨0, rfl, rfl⟩⟩ ?_
  intro s e s' hs hst
  cases e with
  | countRead half => exact hs.count hst
  | countWrite half => exact hs.count hst
  | pollRead half before after ready => exact hs.pollRead hst
  | pollWrite half polled => exact hs.pollWrite hst
  | add half => exact hs.add hst

end

/-- **The counters of a session**, at any moment of any interleaving of its halves: each has the
bytes that were moved in its direction, modulo `2 ^ 64`, but for those of the polls in progress. -/
theorem counters_count_moved_bytes {s : SessionByteCounters} (h : byteCounters.Reaches s) :
    s.inFlight false ≤ s.movedTx ∧ s.txBytes = (s.movedTx - s.inFlight false) % 2 ^ 64 ∧
      s.inFlight true ≤ s.movedRx ∧ s.rxBytes = (s.movedRx - s.inFlight true) % 2 ^ 64 := by
  obtain ⟨⟨tx, htx, hmovedTx⟩, ⟨rx, hrx, hmovedRx⟩⟩ := countInv_of_reaches h
  refine ⟨by omega, ?_, by omega, ?_⟩
  · rw [htx, ← hmovedTx, Nat.add_sub_cancel]
  · rw [hrx, ← hmovedRx, Nat.add_sub_cancel]

/-- A read in progress while a write is counted. -/
theorem counters_count_moved_bytes_racing :
    ∃ s, byteCounters.Reaches s ∧ s.movedRx = 3 ∧ s.inFlight true = 3 ∧ s.txBytes = 5 ∧
      s.rxBytes = (s.movedRx - s.inFlight true) % 2 ^ 64 := by
  have hrun : ∃ s, byteCounters.Reaches s ∧ s.movedRx = 3 ∧ s.inFlight true = 3 ∧ s.txBytes = 5 :=
    ⟨_, ⟨[.countRead 0, .countWrite 1, .pollWrite 1 (.ready (.ok 5)), .pollRead 0 2 5 true, .add 1],
      Machine.run_of_exec rfl⟩, rfl, rfl, rfl⟩
  obtain ⟨s, hs, hmoved, hflight, htx⟩ := hrun
  exact ⟨s, hs, hmoved, hflight, htx, (counters_count_moved_bytes hs).2.2.2⟩

end RtpMux

import RtpMux.Dials
import RtpMux.Stranding

/-!
# How long an address keeps its group

An address gets its `AddrGroup`, and its explorer, when it is first dialled. `prune_dead_addresses`
takes both away when no session of the address is held any more. It runs when a watcher is joined
and when a dial has failed, and at no other time. The last reference to the sessions of an address
can go away later: with a stream that outlives the join of its session's watcher, with a caller
whose `Arc` is there for a moment only, or with the `redialed_old` of a failed redial, which the
loop still holds while it prunes. Such an address keeps its group and its explorer until some other
address makes the loop prune (`forgotten_address_is_probed`).

`Connector.prunesLast` is the condition under which this does not happen: no stream is dropped, and
no passing `Arc` is met by a prune, at an address the loop has nothing more to do with.
`address_groups_released` says that it is enough: an idle loop then has groups and explorers only
for addresses that are being dialled or have a session. That every dial finds its group, and every
explorer has one, holds in any run.
-/

namespace RtpMux

open Connector

/-! ## Who needs an address -/

/-- The loop is installing a session of the address. -/
def Arm.installs : Arm → SocketAddr → Bool
  | .completing b _ _ _, a => b = a
  | _, _ => false

/-- The loop is about to prune. -/
def Arm.prunes : Arm → Bool
  | .failing _ _ => true
  | _ => false

/-- A watcher waits to be joined. -/
def Connector.exitPending (s : Connector) : Bool := s.heap.entries.any (·.2.watcher = .finished)

/-- The loop will come back to the address: it dials it, has a session of it in the map, or will
join a watcher. -/
def Connector.minds (s : Connector) (a : SocketAddr) : Bool :=
  a ∈ s.loop.inFlightDials || (s.sessions.lookup a).isSome || s.exitPending

/-- The last part of the stream is dropped next. -/
def StreamHandle.ends (r : StreamHandle) : Bool :=
  r.phase = .opened || (r.phase = .tracked && !r.halfAlive)

/-- A prune meets no passing `Arc`, of a caller or of the loop itself, at an address that has a
group and that the loop will not come back to. -/
def Connector.prunesUnvisited (s : Connector) : Bool :=
  (s.visitors ++ s.loop.arm.locals).all fun X =>
    (s.addrOf X).all fun a => a ∉ s.loop.groups || s.minds a

/-- The loop prunes after the references have gone, not before: a stream ends only while the loop
still has to do with its address, and no prune meets a passing `Arc` elsewhere. -/
def Connector.prunesLast (s : Connector) : ConnectorEvent → Bool
  | .dropStream i => (s.streams.lookup i).all fun r => !r.ends ||
    (s.addrOf r.guard).all fun a => a ∉ s.loop.groups || s.minds a || s.loop.arm.installs a ||
      s.loop.arm.prunes
  | .reap X => (s.heap.lookup X).all fun x => (s.unmapped X x).prunesUnvisited
  | .advance => !s.loop.arm.prunes || s.prunesUnvisited
  | _ => true

/-! ## Attended addresses -/

/-- A session of the address is in the map, or in the guard of a stream other than `gone`. -/
def Connector.heldBut (s : Connector) (gone : Option StreamId) (a : SocketAddr) : Bool :=
  (s.sessions.lookup a).isSome || s.streams.entries.any fun e =>
    some e.1 ≠ gone && e.2.phase ≠ .dropped && s.addrOf e.2.guard = some a

/-- The address is being dialled or held, or its group will be looked at again. -/
def Connector.attendedBut (s : Connector) (gone : Option StreamId) (a : SocketAddr) : Bool :=
  a ∈ s.loop.inFlightDials || s.loop.arm.installs a || s.heldBut gone a || s.exitPending ||
    s.loop.arm.prunes

/-- An address is held by a mapped session, or by a stream that is not the one that ends. -/
theorem heldBut_iff {s : Connector} {gone : Option StreamId} {a : SocketAddr} :
    s.heldBut gone a = true ↔ (∃ X, s.sessions.lookup a = some X) ∨
      ∃ i r, s.streams.lookup i = some r ∧ some i ≠ gone ∧ r.phase ≠ .dropped ∧
        s.addrOf r.guard = some a := by
  simp only [heldBut, Bool.or_eq_true, Option.isSome_iff_exists, List.any_eq_true,
    Bool.and_eq_true, decide_eq_true_eq]
  refine or_congr_right ⟨?_, ?_⟩
  · rintro ⟨⟨i, r⟩, hi, ⟨hne, hphase⟩, haddr⟩
    exact ⟨i, r, HashMap.lookup_eq_some_iff.mpr hi, hne, hphase, haddr⟩
  · rintro ⟨i, r, hi, hne, hphase, haddr⟩
    exact ⟨⟨i, r⟩, HashMap.lookup_eq_some_iff.mp hi, ⟨hne, hphase⟩, haddr⟩

theorem exitPending_iff {s : Connector} :
    s.exitPending = true ↔ ∃ X x, s.heap.lookup X = some x ∧ x.watcher = .finished := by
  simp only [exitPending, List.any_eq_true, decide_eq_true_eq]
  constructor
  · rintro ⟨⟨X, x⟩, hX, hx⟩
    exact ⟨X, x, HashMap.lookup_eq_some_iff.mpr hX, hx⟩
  · rintro ⟨X, x, hX, hx⟩
    exact ⟨⟨X, x⟩, HashMap.lookup_eq_some_iff.mp hX, hx⟩

/-- Something is still going to look at the address. -/
theorem attendedBut_iff {s : Connector} {gone : Option StreamId} {a : SocketAddr} :
    s.attendedBut gone a = true ↔ a ∈ s.loop.inFlightDials ∨ s.loop.arm.installs a = true ∨
      s.heldBut gone a = true ∨ s.exitPending = true ∨ s.loop.arm.prunes = true := by
  simp only [attendedBut, Bool.or_eq_true, decide_eq_true_eq, or_assoc]

/-- The loop still minds an address: a dial, a mapped session or an exit that it has not seen. -/
theorem minds_iff {s : Connector} {a : SocketAddr} :
    s.minds a = true ↔ a ∈ s.loop.inFlightDials ∨ (∃ X, s.sessions.lookup a = some X) ∨
      s.exitPending = true := by
  simp only [minds, Bool.or_eq_true, decide_eq_true_eq, Option.isSome_iff_exists, or_assoc]

/-- An address the loop will come back to is attended, whatever stream ends. -/
theorem attended_of_minds {s : Connector} {gone : Option StreamId} {a : SocketAddr}
    (h : s.minds a = true) : s.attendedBut gone a = true := by
  refine attendedBut_iff.mpr ?_
  rcases minds_iff.mp h with hfly | hmapped | hexit
  · exact .inl hfly
  · exact .inr (.inr (.inl (heldBut_iff.mpr (.inl hmapped))))
  · exact .inr (.inr (.inr (.inl hexit)))

/-- A passing `Arc` that a prune meets is at an address the loop will come back to. -/
theorem minds_of_unvisited {s : Connector} {X : SessionId} {a : SocketAddr}
    (h : s.prunesUnvisited = true) (hX : X ∈ s.visitors ++ s.loop.arm.locals)
    (haddr : s.addrOf X = some a) (ha : a ∈ s.loop.groups) : s.minds a = true := by
  have hmem := List.all_eq_true.mp h X hX
  simpa [haddr, ha] using hmem

/-! ## Streams stay at their address -/

/-- The streams other than `gone` are still there, each with a guard for the same address. -/
def StreamsKept (addrOf : SessionId → Option SocketAddr) (gone : Option StreamId)
    (m m' : HashMap StreamId StreamHandle) : Prop :=
  ∀ j r, m.lookup j = some r → r.phase ≠ .dropped → some j ≠ gone →
    ∃ r', m'.lookup j = some r' ∧ r'.phase ≠ .dropped ∧ addrOf r'.guard = addrOf r.guard

namespace StreamsKept

variable {addrOf : SessionId → Option SocketAddr} {gone : Option StreamId}
  {m m' m'' : HashMap StreamId StreamHandle}

theorem refl : StreamsKept addrOf gone m m := fun _ r hj hphase _ => ⟨r, hj, hphase, rfl⟩

theorem trans (h : StreamsKept addrOf gone m m') (h' : StreamsKept addrOf gone m' m'') :
    StreamsKept addrOf gone m m'' := by
  intro j r hj hphase hne
  obtain ⟨r', hj', hphase', haddr'⟩ := h j r hj hphase hne
  obtain ⟨r'', hj'', hphase'', haddr''⟩ := h' j r' hj' hphase' hne
  exact ⟨r'', hj'', hphase'', haddr''.trans haddr'⟩

theorem modify (i : StreamId) {f : StreamHandle → StreamHandle}
    (hf : ∀ r, m.lookup i = some r → r.phase ≠ .dropped → some i ≠ gone →
      (f r).phase ≠ .dropped ∧ addrOf (f r).guard = addrOf r.guard) :
    StreamsKept addrOf gone m (m.modify i f) := by
  intro j r hj hphase hne
  rw [HashMap.lookup_modify]
  split
  · rename_i hji
    subst hji
    obtain ⟨hphase', haddr⟩ := hf r hj hphase hne
    exact ⟨f r, by rw [hj, Option.map_some], hphase', haddr⟩
  · exact ⟨r, hj, hphase, rfl⟩

/-- A new stream. -/
theorem insert {i : StreamId} (r : StreamHandle) (hi : m.lookup i = none) :
    StreamsKept addrOf gone m (m.insert i r) := by
  intro j r' hj hphase _
  have hne : j ≠ i := by
    rintro rfl
    rw [hi] at hj
    cases hj
  exact ⟨r', by rw [HashMap.lookup_insert_eq, if_neg hne, hj], hphase, rfl⟩

end StreamsKept

section

variable {s s' : Connector} {gone : Option StreamId}

/-- Rebinding a stream keeps it at its address. -/
theorem kept_rebindOne {i : StreamId} {r : StreamHandle} {new : SessionId}
    (hi : s.streams.lookup i = some r) (hnew : s.addrOf new = s.addrOf r.guard) (pc : RebindPc) :
    StreamsKept s.addrOf gone s.streams (s.rebindOne i r new pc).1.streams := by
  cases pc with
  | offer =>
    simp only [Connector.rebindOne]
    split
    · exact .modify i fun _ _ hphase _ => ⟨hphase, rfl⟩
    · exact .refl
  | guard => exact .refl
  | assign =>
    refine .modify i fun r' hi' hphase _ => ⟨hphase, ?_⟩
    obtain rfl := Option.some.inj (hi.symm.trans hi')
    exact hnew
  | register => exact .refl

/-- A step of `track` keeps the stream at its address. -/
theorem kept_trackStep {i : StreamId} {r : StreamHandle} {session : SessionId} {pc : TrackPc}
    (hmigration : MigrationInv s) (hi : s.streams.lookup i = some r)
    (hphase : r.phase = .tracking session pc) :
    StreamsKept s.addrOf gone s.streams (s.trackStep i r session pc).streams := by
  cases pc with
  | current =>
    simp only [Connector.trackStep]
    split <;> exact .modify i fun _ _ _ _ => ⟨by simp, rfl⟩
  | seek newest cursor hops =>
    simp only [Connector.trackStep]
    cases hops with
    | zero => exact .modify i fun _ _ _ _ => ⟨by simp, rfl⟩
    | succ hops =>
      simp only [Connector.seekStep]
      split
      · exact .modify i fun _ _ _ _ => ⟨by simp, rfl⟩
      · split <;> exact .modify i fun _ _ _ _ => ⟨by simp, rfl⟩
  | place live =>
    simp only [Connector.trackStep]
    split <;> exact .modify i fun _ _ _ _ => ⟨by simp, rfl⟩
  | rebind live pc =>
    have hlive : s.addrOf live = s.addrOf r.guard :=
      (hmigration.ok i r hi).refs live (by simp [StreamHandle.refs, hphase, TrackPc.locals])
    have hone : StreamsKept s.addrOf gone s.streams (s.rebindOne i r live pc).1.streams :=
      kept_rebindOne hi hlive pc
    simp only [Connector.trackStep]
    split
    · rename_i heq
      rw [heq] at hone
      exact hone.trans (.modify i fun _ _ _ _ => ⟨by simp, rfl⟩)
    · rename_i heq
      rw [heq] at hone
      exact hone.trans (.modify i fun _ _ _ _ => ⟨by simp, rfl⟩)

/-- Answering a request keeps the streams. -/
theorem kept_respond {session : SessionId} (hmigration : MigrationInv s)
    (request : StreamRequest) :
    StreamsKept s.addrOf gone s.streams (s.respond session request).streams := by
  simp only [Connector.respond]
  split
  · exact .refl
  · exact .insert _ hmigration.next_unknown

/-- `Connect` keeps the streams. -/
theorem kept_connect {addr : SocketAddr} {lane : LaneClass} {key : Option ObfuscationKey}
    {response : ResponseId} (hmigration : MigrationInv s)
    (hstep : s.connect addr lane key response = some s') :
    StreamsKept s.addrOf gone s.streams s'.streams := by
  unfold Connector.connect at hstep
  split at hstep
  · simp only at hstep
    split at hstep
    · obtain rfl := Option.some.inj hstep
      have hreceived : MigrationInv
          (s.setLoop fun l => { l with received := response :: l.received }) :=
        hmigration.frame_arm rfl rfl rfl rfl rfl rfl
      exact kept_respond hreceived ⟨lane, response⟩
    · split at hstep
      · obtain rfl := Option.some.inj hstep
        exact .refl
      · split at hstep
        · obtain rfl := Option.some.inj hstep
          exact .refl
        · split at hstep <;> obtain rfl := Option.some.inj hstep <;> exact .refl
  · cases hstep

/-- A step of the loop's arm keeps the streams. -/
theorem kept_advance (haddressed : Addressed s) (hmigration : MigrationInv s)
    (hstep : s.advance = some s') : StreamsKept s.addrOf gone s.streams s'.streams := by
  simp only [Connector.advance] at hstep
  split at hstep
  · rename_i addr session old stage harm
    cases stage with
    | rebind =>
      simp only [Connector.completeStep] at hstep
      split at hstep
      · obtain rfl := Option.some.inj hstep
        exact .refl
      · split at hstep <;> obtain rfl := Option.some.inj hstep <;> exact .refl
    | move todo =>
      cases todo with
      | nil =>
        obtain rfl := Option.some.inj hstep
        exact .refl
      | cons i todo =>
        simp only [Connector.completeStep] at hstep
        split at hstep <;> obtain rfl := Option.some.inj hstep <;> exact .refl
    | one i pc todo =>
      simp only [Connector.completeStep] at hstep
      split at hstep
      · rename_i r hi
        -- the stream moves between sessions of the address the arm is about
        have hsession : s.addrOf session = s.addrOf r.guard := by
          rw [haddressed.arm session (by simp [harm, Arm.locals])]
          exact ((hmigration.ok i r hi).working (by simp [harm, Arm.work, Arm.borrowed])).1
        have hone : StreamsKept s.addrOf gone s.streams (s.rebindOne i r session pc).1.streams :=
          kept_rebindOne hi hsession pc
        split at hstep
        · rename_i heq
          rw [heq] at hone
          obtain rfl := Option.some.inj hstep
          exact hone
        · rename_i s₁ heq
          rw [heq] at hone
          obtain rfl := Option.some.inj hstep
          obtain ⟨-, -, -, hstreams, -, -⟩ := frame_releaseStream s₁ i
          exact hstreams ▸ hone
      · cases hstep
    | answer waiters =>
      cases waiters with
      | nil =>
        obtain rfl := Option.some.inj hstep
        exact .refl
      | cons request waiters =>
        obtain rfl := Option.some.inj hstep
        exact kept_respond hmigration request
  · obtain rfl := Option.some.inj hstep
    exact .refl
  · cases hstep

end

/-- The stream an event ends. -/
def Connector.ending (s : Connector) : ConnectorEvent → Option StreamId
  | .dropStream i => if (s.streams.lookup i).any (·.ends) then some i else none
  | _ => none

/-- Only the stream that is dropped may be gone. -/
theorem kept_dropStream {s s' : Connector} {i : StreamId} (hstep : s.dropStream i = some s') :
    StreamsKept s.addrOf (s.ending (.dropStream i)) s.streams s'.streams := by
  simp only [Connector.dropStream] at hstep
  split at hstep
  · rename_i r hi
    have hgone : r.ends = true → ∀ f, StreamsKept s.addrOf (s.ending (.dropStream i)) s.streams
        (s.streams.modify i f) := by
      intro hends f
      refine .modify i fun _ _ _ hne => absurd ?_ hne
      simp [ending, hi, hends]
    split at hstep
    · rename_i hphase
      obtain rfl := Option.some.inj hstep
      exact hgone (by simp [StreamHandle.ends, hphase]) _
    · rename_i hphase
      split at hstep
      · obtain rfl := Option.some.inj hstep
        exact .modify i fun _ _ hphase _ => ⟨hphase, rfl⟩
      · rename_i hhalf
        have hends : r.ends = true := by simp [StreamHandle.ends, hphase, hhalf]
        split at hstep <;> obtain rfl := Option.some.inj hstep <;> exact hgone hends _
    · cases hstep
  · cases hstep

/-- Every step keeps every stream it does not end, at its address. -/
theorem kept_step {s s' : Connector} {e : ConnectorEvent} (haddressed : Addressed s)
    (hmigration : MigrationInv s) (hstep : s.step e = some s') :
    StreamsKept s.addrOf (s.ending e) s.streams s'.streams := by
  -- no step moves a stream to another address; rebinding goes to a session of the same one
  cases e with
  | «open» addr lane =>
    obtain ⟨X, -, rfl⟩ := Option.map_eq_some_iff.mp hstep
    exact .insert _ hmigration.next_unknown
  | intoStream i =>
    simp only [Connector.step, Connector.intoStream] at hstep
    split at hstep
    · split at hstep
      · obtain rfl := Option.some.inj hstep
        exact .modify i fun _ _ _ _ => ⟨by simp, rfl⟩
      · cases hstep
    · cases hstep
  | track i =>
    simp only [Connector.step, Connector.track] at hstep
    split at hstep
    · rename_i r hi
      split at hstep
      · rename_i hphase
        obtain rfl := Option.some.inj hstep
        exact kept_trackStep hmigration hi hphase
      · cases hstep
    · cases hstep
  | dropStream i => exact kept_dropStream hstep
  | writerEnds i =>
    simp only [Connector.step, Connector.writerEnds] at hstep
    split at hstep
    · split at hstep
      · cases hstep
      · obtain rfl := Option.some.inj hstep
        exact .modify i fun _ _ hphase _ => ⟨hphase, rfl⟩
    · cases hstep
  | advance => exact kept_advance haddressed hmigration hstep
  | connect addr lane key response => exact kept_connect hmigration hstep
  | closeResponse response =>
    obtain rfl := Option.some.inj hstep
    exact .refl
  | probeSession addr =>
    obtain rfl := Option.some.inj hstep
    exact .refl
  | visit visit =>
    obtain ⟨X, -, rfl⟩ := Option.map_eq_some_iff.mp hstep
    exact .refl
  | leave X =>
    simp only [Connector.step, Connector.leave] at hstep
    split at hstep
    · obtain rfl := Option.some.inj hstep
      exact .refl
    · cases hstep
  | openerDies X =>
    obtain rfl := Option.some.inj hstep
    exact .refl
  | supervisorEnds X =>
    simp only [Connector.step, Connector.supervisorEnds] at hstep
    split at hstep
    · split at hstep
      · obtain rfl := Option.some.inj hstep
        exact .refl
      · cases hstep
    · cases hstep
  | watcher X =>
    simp only [Connector.step, Connector.watcherStep] at hstep
    split at hstep
    · split at hstep
      · split at hstep
        · obtain rfl := Option.some.inj hstep
          exact .refl
        · split at hstep
          · cases hstep
          · obtain rfl := Option.some.inj hstep
            exact .refl
      · obtain rfl := Option.some.inj hstep
        exact .refl
      · cases hstep
    · cases hstep
  | reap X =>
    simp only [Connector.step, Connector.reap] at hstep
    split at hstep
    · split at hstep
      · obtain rfl := Option.some.inj hstep
        exact .refl
      · cases hstep
    · cases hstep
  | dialDone dial result =>
    simp only [Connector.step, Connector.dialDone] at hstep
    split at hstep
    · split at hstep <;> obtain rfl := Option.some.inj hstep
      · simp only [Connector.installSession]
        split <;> exact .refl
      · exact .refl
    · cases hstep
  | redial addr trigger wantsMigration =>
    simp only [Connector.step, Connector.redial] at hstep
    split at hstep
    · split at hstep <;> obtain rfl := Option.some.inj hstep <;> exact .refl
    · cases hstep
  | explorerReport addr =>
    simp only [Connector.step] at hstep
    split at hstep
    · obtain rfl := Option.some.inj hstep
      exact .refl
    · cases hstep
  | reset =>
    obtain ⟨-, -, hstreams, -⟩ := reset_eq hstep
    exact hstreams ▸ .refl

/-! ## Every address with a group is attended -/

/-- Every address with a group is attended. -/
def Attended (s : Connector) : Prop := ∀ a ∈ s.loop.groups, s.attendedBut none a = true

theorem attended_init (explorerCtx : Bool) : Attended (Connector.init explorerCtx) := by
  intro a ha
  exact absurd ha (AList.notMem_empty a)

/-- Sessions keep their addresses. -/
theorem ConnectorStep.addrOf_mono {s s' : Connector} {e : ConnectorEvent} (haddressed : Addressed s)
    (h : ConnectorStep s e s') {X : SessionId} {a : SocketAddr} (hX : s.addrOf X = some a) :
    s'.addrOf X = some a := by
  cases h with
  | quiet hq => rw [hq.heap.addrOf, hX]
  | installed dial group harm hdial hgroup => exact haddressed.addrOf_installed dial group hX
  | panicked dial harm hdial hgroup =>
    simp only [installSession, hgroup]
    exact hX
  | drained addr session old harm => exact (addrOf_drain X).trans hX
  | reaped session x he hx harm hfinished =>
    exact (congrFun (addrOf_unmapped s session x) X).trans hX
  | reset harm hreset =>
    obtain ⟨-, -, -, -, hheap, -⟩ := reset_eq hreset
    rw [addrOf_mapVal hheap (by intro X x; split <;> rfl), hX]
  | _ => exact hX

/-- What is held in the end, is held by the map, a redial, a stream of the address, or in
passing. -/
theorem held_of_strong {s : Connector} {X : SessionId} {a : SocketAddr} (haddressed : Addressed s)
    (hdialing : Dialing s) (hmigration : MigrationInv s) (hborrowed : s.loop.arm.borrowed = none)
    (hX : s.strong X = true) (haddr : s.addrOf X = some a) :
    a ∈ s.loop.inFlightDials ∨ s.heldBut none a = true ∨
      ∃ Y ∈ s.visitors ++ s.loop.arm.locals, s.addrOf Y = some a := by
  obtain ⟨Y, hroot, hpath⟩ := (haddressed.strong_iff.mp hX).exists_root
  have hY : s.addrOf Y = some a := by
    clear hroot
    induction hpath using Relation.ReflTransGen.head_induction_on with
    | refl => exact haddr
    | head hlink _ ih => exact (haddressed.younger _ _ hlink).2 ▸ ih
  rcases mem_roots.mp hroot with ⟨b, hb⟩ | ⟨b, r, hb, rfl⟩ | hlocal | hvisitor | ⟨i, r, hi, hr⟩
  · obtain rfl := Option.some.inj ((haddressed.mapped b Y hb).symm.trans hY)
    exact .inr (.inl (heldBut_iff.mpr (.inl ⟨Y, hb⟩)))
  · obtain rfl := Option.some.inj ((haddressed.redial b r hb).symm.trans hY)
    exact .inl (hdialing.redials b r hb)
  · exact .inr (.inr ⟨Y, List.mem_append_right _ hlocal, hY⟩)
  · exact .inr (.inr ⟨Y, List.mem_append_left _ hvisitor, hY⟩)
  · rw [hborrowed] at hr
    have hr : Y ∈ r.refs false := by simpa using hr
    have hphase : r.phase ≠ .dropped := by
      intro hdropped
      simp [StreamHandle.refs, hdropped] at hr
    have hguard : s.addrOf r.guard = some a := by
      rw [← (hmigration.ok i r hi).refs Y (r.refs_eq hphase false true ▸ hr)]
      exact hY
    exact .inr (.inl (heldBut_iff.mpr (.inr ⟨i, r, hi, by simp, hphase, hguard⟩)))

theorem mem_groups_iff {m : HashMap SocketAddr AddrGroup} {a : SocketAddr} :
    a ∈ m ↔ ∃ g, m.lookup a = some g := by
  rw [← AList.lookup_isSome, Option.isSome_iff_exists]

/-- Only its drop ends a stream. -/
theorem ending_eq_some {s : Connector} {e : ConnectorEvent} {i : StreamId}
    (h : s.ending e = some i) :
    e = .dropStream i ∧ ∃ r, s.streams.lookup i = some r ∧ r.ends = true := by
  unfold ending at h
  split at h
  · rename_i j
    cases hj : s.streams.lookup j with
    | none => simp [hj] at h
    | some r =>
      simp only [hj, Option.any_some] at h
      split at h
      · rename_i hends
        obtain rfl := Option.some.inj h
        exact ⟨rfl, r, hj, hends⟩
      · cases h
  · cases h

/-- The end of a stream leaves the addresses attended. -/
theorem Attended.without {s : Connector} {e : ConnectorEvent} (h : Attended s)
    (hlast : s.prunesLast e = true) {a : SocketAddr} (ha : a ∈ s.loop.groups) :
    s.attendedBut (s.ending e) a = true := by
  have hattended := h a ha
  cases hending : s.ending e with
  | none => exact hattended
  | some i =>
    obtain ⟨rfl, r, hi, hends⟩ := ending_eq_some hending
    simp only [prunesLast, hi, Option.all_some, hends, Bool.not_true, Bool.false_or] at hlast
    by_cases hguard : s.addrOf r.guard = some a
    · have hcare : (s.minds a = true ∨ s.loop.arm.installs a = true) ∨
          s.loop.arm.prunes = true := by
        simpa [hguard, ha] using hlast
      rcases hcare with (hminds | hinstalls) | hprunes
      · exact attended_of_minds hminds
      · exact attendedBut_iff.mpr (.inr (.inl hinstalls))
      · exact attendedBut_iff.mpr (.inr (.inr (.inr (.inr hprunes))))
    · refine attendedBut_iff.mpr ((attendedBut_iff.mp hattended).imp_right (Or.imp_right
        (Or.imp_left fun hheld => heldBut_iff.mpr ((heldBut_iff.mp hheld).imp_right ?_))))
      rintro ⟨j, r', hj, -, hphase, haddr⟩
      refine ⟨j, r', hj, ?_, hphase, haddr⟩
      intro heq
      obtain rfl := Option.some.inj heq
      obtain rfl := Option.some.inj (hi.symm.trans hj)
      exact hguard haddr

/-- An address that was held is held by what was kept. -/
theorem StreamsKept.held {s s' : Connector} {gone : Option StreamId} {a : SocketAddr}
    (h : StreamsKept s.addrOf gone s.streams s'.streams)
    (haddr : ∀ X, s.addrOf X = some a → s'.addrOf X = some a)
    (hsessions : ∀ X, s.sessions.lookup a = some X → ∃ Y, s'.sessions.lookup a = some Y)
    (hheld : s.heldBut gone a = true) : s'.heldBut none a = true := by
  refine heldBut_iff.mpr ((heldBut_iff.mp hheld).imp (fun ⟨X, hX⟩ => hsessions X hX) ?_)
  rintro ⟨i, r, hi, hne, hphase, hguard⟩
  obtain ⟨r', hi', hphase', hguard'⟩ := h i r hi hphase hne
  exact ⟨i, r', hi', by simp, hphase', haddr _ (hguard'.trans hguard)⟩

theorem Arm.installs_coarse (arm : Arm) : arm.coarse.installs = arm.installs := by
  funext a
  unfold Arm.coarse
  split <;> rfl

theorem Arm.prunes_coarse (arm : Arm) : arm.coarse.prunes = arm.prunes := by
  unfold Arm.coarse
  split <;> rfl

namespace Attended

variable {s s' : Connector} {e : ConnectorEvent}

/-- An address whose group a prune keeps is attended afterwards: what the prune met in passing is at
an address the loop will come back to. -/
theorem of_kept {X : SessionId} {a : SocketAddr} (haddressed : Addressed s) (hdialing : Dialing s)
    (hmigration : MigrationInv s) (hborrowed : s.loop.arm.borrowed = none)
    (hpassing : ∀ Y ∈ s.visitors ++ s.loop.arm.locals, s.addrOf Y = some a → s.minds a = true)
    (hX : s.strong X = true) (hXaddr : s.addrOf X = some a) :
    s.minds a = true ∨ s.heldBut none a = true := by
  rcases held_of_strong haddressed hdialing hmigration hborrowed hX hXaddr with
    hfly | hheld | ⟨Y, hY, hYaddr⟩
  · exact .inl (minds_iff.mpr (.inl hfly))
  · exact .inr hheld
  · exact .inl (hpassing Y hY hYaddr)

/-- The prune after a failed dial. The loop still holds the session a failed redial was to
replace. -/
theorem pruned {addr : SocketAddr} {old : Option SessionId} (haddressed : Addressed s)
    (hdialing : Dialing s) (hmigration : MigrationInv s) (hunvisited : s.prunesUnvisited = true)
    (harm : s.loop.arm = .failing addr old) : Attended (s.pruneDeadAddresses.setArm .select) := by
  intro a ha
  obtain ⟨g, hg⟩ := mem_groups_iff.mp ha
  obtain ⟨g₀, hg₀, -, hkeep⟩ := lookup_prune.mp hg
  have hkept : s.minds a = true ∨ s.heldBut none a = true := by
    rcases hkeep with hfly | ⟨X, hX, hstrong⟩
    · exact .inl (minds_iff.mpr (.inl hfly))
    · refine of_kept haddressed hdialing hmigration (by rw [harm]; rfl) ?_ hstrong
        (haddressed.group a g₀ hg₀ X hX)
      exact fun Y hY hYaddr =>
        minds_of_unvisited hunvisited hY hYaddr (mem_groups_iff.mpr ⟨g₀, hg₀⟩)
  rcases hkept with hminds | hheld
  · exact attended_of_minds (s := s.pruneDeadAddresses.setArm .select) hminds
  · exact attendedBut_iff.mpr (.inr (.inr (.inl hheld)))

/-- The prune after a join. -/
theorem reaped {session : SessionId} {x : Session}
    (haddressed : Addressed (s.unmapped session x).pruneDeadAddresses)
    (hdialing : Dialing (s.unmapped session x).pruneDeadAddresses)
    (hmigration : MigrationInv (s.unmapped session x).pruneDeadAddresses)
    (hgroup : ∀ a g, s.loop.groups.lookup a = some g → ∀ X ∈ g.sessions, s.addrOf X = some a)
    (hunvisited : (s.unmapped session x).prunesUnvisited = true)
    (harm : s.loop.arm = .select) : Attended (s.unmapped session x).pruneDeadAddresses := by
  intro a ha
  obtain ⟨g, hg⟩ := mem_groups_iff.mp ha
  obtain ⟨g₀, hg₀, -, hkeep⟩ := lookup_prune.mp hg
  have harm' : (s.unmapped session x).pruneDeadAddresses.loop.arm = .select := harm
  have hkept : (s.unmapped session x).pruneDeadAddresses.minds a = true ∨
      (s.unmapped session x).pruneDeadAddresses.heldBut none a = true := by
    rcases hkeep with hfly | ⟨X, hX, hstrong⟩
    · exact .inl (minds_iff.mpr (.inl hfly))
    · refine of_kept haddressed hdialing hmigration (by rw [harm']; rfl) ?_ hstrong
        ((congrFun (addrOf_unmapped s session x) X).trans (hgroup a g₀ hg₀ X hX))
      intro Y hY hYaddr
      exact minds_of_unvisited (s := s.unmapped session x) hunvisited hY hYaddr
        (mem_groups_iff.mpr ⟨g₀, hg₀⟩)
  rcases hkept with hminds | hheld
  · exact attended_of_minds hminds
  · exact attendedBut_iff.mpr (.inr (.inr (.inl hheld)))

/-- Steps after which an address is attended for the reason it was. -/
theorem keep {gone : Option StreamId} {a : SocketAddr} (h : s.attendedBut gone a = true)
    (hkept : StreamsKept s.addrOf gone s.streams s'.streams)
    (haddr : ∀ X, s.addrOf X = some a → s'.addrOf X = some a)
    (hsessions : ∀ X, s.sessions.lookup a = some X → ∃ Y, s'.sessions.lookup a = some Y)
    (hfly : a ∈ s.loop.inFlightDials → a ∈ s'.loop.inFlightDials)
    (hinstalls : s.loop.arm.installs a = true →
      s'.loop.arm.installs a = true ∨ s'.heldBut none a = true)
    (hexit : s.exitPending = true → s'.exitPending = true)
    (hprunes : s.loop.arm.prunes = true → s'.loop.arm.prunes = true) :
    s'.attendedBut none a = true := by
  refine attendedBut_iff.mpr ?_
  rcases attendedBut_iff.mp h with h | h | h | h | h
  · exact .inl (hfly h)
  · rcases hinstalls h with h | h
    · exact .inr (.inl h)
    · exact .inr (.inr (.inl h))
  · exact .inr (.inr (.inl (hkept.held haddr hsessions h)))
  · exact .inr (.inr (.inr (.inl (hexit h))))
  · exact .inr (.inr (.inr (.inr (hprunes h))))

/-- An exit that the loop has not seen stays. -/
theorem exitPending_quiet (hq : Quiet s s') (h : s.exitPending = true) :
    s'.exitPending = true := by
  obtain ⟨X, x, hX, hx⟩ := exitPending_iff.mp h
  rcases hq.heap.lookup X with ⟨hnone, -⟩ | ⟨y, y', hy, hy', hstep⟩
  · rw [hnone] at hX
    cases hX
  · obtain rfl := Option.some.inj (hX.symm.trans hy)
    exact exitPending_iff.mpr ⟨X, y', hy', hstep.finished hx⟩

theorem exitPending_drain {old session : SessionId} (h : s.exitPending = true) :
    (s.drain old session).exitPending = true := by
  obtain ⟨X, x, hX, hx⟩ := exitPending_iff.mp h
  have hlookup : (s.drain old session).heap.lookup X =
      if X = old then some { x with streams := [], successor := some session } else some x := by
    simp only [drain, HashMap.lookup_modify, hX, Option.map_some]
  split at hlookup
  · exact exitPending_iff.mpr ⟨X, _, hlookup, hx⟩
  · exact exitPending_iff.mpr ⟨X, x, hlookup, hx⟩

/-- A dial is started: its address is in flight. -/
theorem started {gone : Option StreamId} {addr : SocketAddr} {key : Option ObfuscationKey}
    {l : Loop} (hbefore : ∀ a ∈ s.loop.groups, s.attendedBut gone a = true)
    (hkept : StreamsKept s.addrOf gone s.streams s'.streams) (harm : s.loop.arm = .select)
    (hgroups : l.groups = s.loop.groups) (hfly : l.inFlightDials = s.loop.inFlightDials)
    (hs' : s' = s.setLoop fun _ => startDial addr key l) : Attended s' := by
  subst hs'
  intro a ha
  by_cases haddr : a = addr
  · refine attendedBut_iff.mpr (.inl ?_)
    simp [setLoop, startDial, haddr]
  · have ha : a ∈ s.loop.groups := by
      simpa [setLoop, startDial, AList.mem_insert, haddr, hgroups] using ha
    refine keep (hbefore a ha) hkept (fun _ => id) (fun X hX => ⟨X, hX⟩) ?_ ?_ id ?_
    · intro ha
      simp only [setLoop, startDial, hfly]
      exact Finset.mem_insert_of_mem ha
    · rw [harm]
      exact fun hinstalls => by cases hinstalls
    · rw [harm]
      exact fun hprunes => by cases hprunes

/-- **Every step that leaves the addresses attended keeps them attended.** -/
theorem step (h : Attended s) (haddressed : Addressed s) (hdialing : Dialing s) (hgate : GateInv s)
    (hmigration : MigrationInv s) (hlast : s.prunesLast e = true)
    (hstep : s.step e = some s') : Attended s' := by
  have hkept := kept_step haddressed hmigration hstep
  have haddr : ∀ a X, s.addrOf X = some a → s'.addrOf X = some a :=
    fun a X hX => (ConnectorStep.of_step hstep).addrOf_mono haddressed hX
  have hbefore : ∀ a ∈ s.loop.groups, s.attendedBut (s.ending e) a = true :=
    fun a ha => h.without hlast ha
  have haddressed' := haddressed.step (.of_step hstep)
  have hdialing' := hdialing.step (.of_step hstep)
  have hmigration' := hmigration.step haddressed hgate hstep
  -- an arm that is nowhere near the address
  have hselect : s.loop.arm = .select → ∀ a, s.loop.arm.installs a = true → False := by
    intro harm a ha
    rw [harm] at ha
    cases ha
  have hselect' : s.loop.arm = .select → s.loop.arm.prunes = true → False := by
    intro harm hprunes
    rw [harm] at hprunes
    cases hprunes
  cases ConnectorStep.of_step hstep with
  | quiet hq =>
    intro a ha
    rw [hq.tables.groups] at ha
    refine keep (hbefore a ha) hkept (haddr a) ?_ ?_ ?_ (exitPending_quiet hq) ?_
    · exact fun X hX => ⟨X, hq.sessions ▸ hX⟩
    · rw [hq.tables.inFlightDials]
      exact id
    · rw [← Arm.installs_coarse s'.loop.arm, hq.arm, Arm.installs_coarse]
      exact .inl
    · rw [← Arm.prunes_coarse s'.loop.arm, hq.arm, Arm.prunes_coarse]
      exact id
  | installed dial group harm hdial hgroup =>
    intro a ha
    by_cases hadial : a = dial.addr
    · refine attendedBut_iff.mpr (.inr (.inl ?_))
      simp [installed, removeDial, Arm.installs, hadial]
    · have ha : a ∈ s.loop.groups := by
        simpa [installed, removeDial, AList.mem_insert, hadial] using ha
      refine keep (hbefore a ha) hkept (haddr a) (fun X hX => ⟨X, hX⟩) ?_
        (fun ha => (hselect harm a ha).elim) ?_ fun hprunes => (hselect' harm hprunes).elim
      · exact fun hfly => Finset.mem_erase.mpr ⟨hadial, hfly⟩
      · intro hexit
        obtain ⟨X, x, hX, hx⟩ := exitPending_iff.mp hexit
        have hne : X ≠ s.nextSession := haddressed.ne_next (by simp [addrOf, hX])
        refine exitPending_iff.mpr ⟨X, x, ?_, hx⟩
        simp only [installed]
        rw [HashMap.lookup_insert_eq, if_neg hne, hX]
  | panicked dial harm hdial hgroup => exact absurd hgroup (hdialing.group_of_dial hdial)
  | failed dial waiters answers he harm hdial =>
    intro a _
    exact attendedBut_iff.mpr (.inr (.inr (.inr (.inr rfl))))
  | pruned addr old he harm =>
    have hunvisited : s.prunesUnvisited = true := by
      simpa [he, prunesLast, harm, Arm.prunes] using hlast
    exact pruned haddressed hdialing hmigration hunvisited harm
  | drained addr session old harm =>
    intro a ha
    refine keep (hbefore a ha) hkept (haddr a) (fun X hX => ⟨X, hX⟩) id ?_ ?_ ?_
    · rw [harm]
      exact .inl
    · exact fun hexit => exitPending_drain hexit
    · rw [harm]
      exact id
  | retired addr session old stage harm hstage =>
    intro a ha
    refine keep (hbefore a ha) hkept (haddr a) (fun X hX => ⟨X, hX⟩) id ?_ id ?_
    · rw [harm]
      exact .inl
    · rw [harm]
      exact id
  | mapped addr session old harm =>
    intro a ha
    refine keep (hbefore a ha) hkept (haddr a) ?_ id ?_ id ?_
    · intro X hX
      rw [HashMap.lookup_insert_eq]
      split
      · exact ⟨session, rfl⟩
      · exact ⟨X, hX⟩
    · intro hinstalls
      rw [harm] at hinstalls
      obtain rfl : addr = a := of_decide_eq_true hinstalls
      exact .inr (heldBut_iff.mpr (.inl ⟨session, AList.lookup_insert _⟩))
    · rw [harm]
      exact id
  | reaped session x he hx harm hfinished =>
    have hunvisited : (s.unmapped session x).prunesUnvisited = true := by
      simpa [he, prunesLast, hx] using hlast
    exact reaped haddressed' hdialing' hmigration' haddressed.group hunvisited harm
  | dialled addr key l he hstart harm hfree hroom htables harm' =>
    exact started (l := { l with addrKeys := l.addrKeys.insert addr key }) hbefore hkept harm
      htables.groups htables.inFlightDials rfl
  | redialled addr trigger wantsMigration old he hstart harm htarget =>
    exact started (l := { s.loop with redials := s.loop.redials.insert addr ⟨old, trigger⟩ })
      hbefore hkept harm rfl rfl rfl
  | reset harm hreset =>
    obtain ⟨-, -, -, -, -, -, hgroups, -⟩ := reset_eq hreset
    intro a ha
    rw [hgroups] at ha
    exact absurd ha (AList.notMem_empty a)

end Attended

/-- Every group is attended in every run whose prunes come last. -/
theorem attended_of_reaches {explorerCtx : Bool} {s : Connector}
    (h : (connector explorerCtx).ReachesWhere (fun s e => s.prunesLast e = true) s) :
    Dialing s ∧ Attended s := by
  have hall : (Addressed s ∧ GateInv s ∧ MigrationInv s) ∧ Dialing s ∧ Attended s := by
    refine h.invariant
      (I := fun s => (Addressed s ∧ GateInv s ∧ MigrationInv s) ∧ Dialing s ∧ Attended s) ?_ ?_
    · exact ⟨⟨addressed_init explorerCtx, gateInv_init explorerCtx, migrationInv_init explorerCtx⟩,
        dialing_init explorerCtx, attended_init explorerCtx⟩
    · rintro s e s' ⟨⟨haddressed, hgate, hmigration⟩, hdialing, hattended⟩ hlast hstep
      exact ⟨⟨haddressed.step (.of_step hstep), hgate.step haddressed (.of_step hstep),
          hmigration.step haddressed hgate hstep⟩, hdialing.step (.of_step hstep),
        hattended.step haddressed hdialing hgate hmigration hlast hstep⟩
  exact hall.2

/-! ## The result -/

/-- A session is in the `sessions` map or in the guard of a stream. -/
def Connector.HeldByUse (s : Connector) (session : SessionId) : Prop :=
  (∃ a, s.sessions.lookup a = some session) ∨
    ∃ i r, s.streams.lookup i = some r ∧ r.phase ≠ .dropped ∧ r.guard = session

/-- Groups and explorers are there when they are needed, and only then. -/
structure GroupsReleased (s : Connector) : Prop where
  grouped : ∀ a ∈ s.loop.inFlightDials, a ∈ s.loop.groups
  /-- `install_session` found its group -/
  running : s.loop.arm ≠ .panicked
  explored : ∀ a ∈ s.loop.explorers, a ∈ s.loop.groups
  /-- an idle loop keeps no address without a dial or a session -/
  released : s.loop.arm = .select → s.exitPending = false →
    ∀ a, a ∈ s.loop.groups ∨ a ∈ s.loop.explorers →
      a ∈ s.loop.inFlightDials ∨ ∃ X, s.addrOf X = some a ∧ s.HeldByUse X

/-- **Groups and explorers are released.** In a run in which the loop prunes after the references to
an address have gone, and not before, an idle loop has groups and explorers only for addresses that
are being dialled or have a session. -/
theorem address_groups_released {explorerCtx : Bool} {s : Connector}
    (h : (connector explorerCtx).ReachesWhere (fun s e => s.prunesLast e = true) s) :
    GroupsReleased s := by
  obtain ⟨hdialing, hattended⟩ := attended_of_reaches h
  have haddressed := addressed_of_reaches h
  have hmem : ∀ a, s.loop.groups.lookup a ≠ none → a ∈ s.loop.groups :=
    fun a ha => mem_groups_iff.mpr (Option.ne_none_iff_exists'.mp ha)
  have hexplored : ∀ a ∈ s.loop.explorers, a ∈ s.loop.groups :=
    fun a ha => hmem a (hdialing.explored a ha)
  refine ⟨fun a ha => hmem a (hdialing.grouped a ha), hdialing.running, hexplored, ?_⟩
  intro harm hidle a ha
  have hgroup : a ∈ s.loop.groups := ha.elim id (hexplored a)
  rcases attendedBut_iff.mp (hattended a hgroup) with hfly | hinstalls | hheld | hexit | hprunes
  · exact .inl hfly
  · rw [harm] at hinstalls
    cases hinstalls
  · right
    rcases heldBut_iff.mp hheld with ⟨X, hX⟩ | ⟨i, r, hi, -, hphase, hguard⟩
    · exact ⟨X, haddressed.mapped a X hX, .inl ⟨a, hX⟩⟩
    · exact ⟨r.guard, hguard, .inr ⟨i, r, hi, hphase, rfl⟩⟩
  · rw [hidle] at hexit
    cases hexit
  · rw [harm] at hprunes
    cases hprunes

/-- A session is dialled, and its only stream handed out. -/
def dialledRun : List ConnectorEvent :=
  [.connect (.v4 1 1) .bulk none 0, .dialDone ⟨.v4 1 1, ⟨0⟩, none⟩ (.ok ()), .advance, .advance,
    .advance]

/-- Two addresses have a session each, and a caller looks at the second. -/
def viewedRun : List ConnectorEvent :=
  dialledRun ++ [ConnectorEvent.connect (.v4 2 1) .bulk none 1,
    .dialDone ⟨.v4 2 1, ⟨1⟩, none⟩ (.ok ()), .advance,
    .advance, .advance, .probeSession (.v4 2 1), .visit (.view 1)]

/-- Of two addresses one loses its stream and then its session, while a caller still looks at the
session of the other; the group and the explorer of the first go with its session. -/
theorem address_groups_released_one :
    ∃ s, (connector true).ReachesWhere (fun s e => s.prunesLast e = true) s ∧
      s.loop.arm = .select ∧ s.exitPending = false ∧ s.visitors = [1] ∧
      s.loop.groups.keys = [.v4 2 1] ∧ s.loop.explorers = {.v4 2 1} ∧ GroupsReleased s := by
  have hrun : ∃ s, (connector true).ReachesWhere (fun s e => s.prunesLast e = true) s ∧
      s.loop.arm = .select ∧ s.exitPending = false ∧ s.visitors = [1] ∧
      s.loop.groups.keys = [.v4 2 1] ∧ s.loop.explorers = {.v4 2 1} :=
    ⟨_, ⟨viewedRun ++ [ConnectorEvent.dropStream 0, .supervisorEnds 0, .reap 0],
      Machine.run_of_exec rfl⟩, rfl,
      by decide, by decide, by decide, by decide⟩
  obtain ⟨s, hreach, harm, hidle, hvisitors, hgroups, hexplorers⟩ := hrun
  exact ⟨s, hreach, harm, hidle, hvisitors, hgroups, hexplorers, address_groups_released hreach⟩

-- the caller alone keeps the group and the explorer of an address over the last prune
example : ∃ s, (connector true).Reaches s ∧ s.loop.arm = .select ∧ s.exitPending = false ∧
    s.visitors = [] ∧ s.loop.explorers = {.v4 1 1, .v4 2 1} ∧ s.sessions.keys = [.v4 1 1] ∧
    (∀ e ∈ s.streams.entries, e.2.guard = 0 ∨ e.2.phase = .dropped) :=
  ⟨_, ⟨viewedRun ++ [ConnectorEvent.dropStream 1, .supervisorEnds 1, .reap 1, .leave 1],
    Machine.run_of_exec rfl⟩, rfl, by decide, by decide, by decide, by decide, by decide⟩

/-- **A forgotten address.** The watcher of the session is joined while a stream still holds it, and
then the stream is dropped: nothing prunes any more. No dial, no session and no stream is left, and
the address has its group and its explorer. -/
theorem forgotten_address_is_probed :
    ∃ s, (connector true).Reaches s ∧ s.loop.arm = .select ∧
      (∀ e ∈ s.heap.entries, e.2.watcher = .reaped) ∧ s.loop.inFlightDials = ∅ ∧
      s.sessions.keys = [] ∧ (∀ e ∈ s.streams.entries, e.2.phase = .dropped) ∧
      (.v4 1 1) ∈ s.loop.explorers ∧ ¬ GroupsReleased s := by
  have hrun : ∃ s, (connector true).Reaches s ∧ s.loop.arm = .select ∧
      (∀ e ∈ s.heap.entries, e.2.watcher = .reaped) ∧ s.loop.inFlightDials = ∅ ∧
      s.sessions.keys = [] ∧ (∀ e ∈ s.streams.entries, e.2.phase = .dropped) ∧
      (.v4 1 1) ∈ s.loop.explorers ∧ s.exitPending = false :=
    ⟨_, ⟨dialledRun ++ [ConnectorEvent.supervisorEnds 0, .reap 0, .dropStream 0],
      Machine.run_of_exec rfl⟩,
      rfl, by decide, by decide, by decide, by decide, by decide, by decide⟩
  obtain ⟨s, hreach, harm, hreaped, hfly, hsessions, hstreams, hexplored, hidle⟩ := hrun
  refine ⟨s, hreach, harm, hreaped, hfly, hsessions, hstreams, hexplored, fun hreleased => ?_⟩
  rcases hreleased.released harm hidle _ (.inr hexplored) with hmem | ⟨X, -, hheld⟩
  · simp [hfly] at hmem
  · rcases hheld with ⟨a, ha⟩ | ⟨i, r, hi, hphase, -⟩
    · have hmem : a ∈ s.sessions.keys := AList.mem_keys.mp (AList.lookup_isSome.mp (by simp [ha]))
      simp [hsessions] at hmem
    · exact hphase (hstreams ⟨i, r⟩ (HashMap.lookup_eq_some_iff.mp hi))

end RtpMux

import Mathlib.Data.Prod.Lex
import RtpMux.DriverScope
import RtpMux.Halting

/-!
# The group drivers under every schedule (`group.rs`)

`ScopeInv` says where each driver is and what its tasks can look like there; every step of every
party keeps it (`ScopeInv.step`). From it follow the two results. `driver_scope_safety`: a submitted
driver is owned by the scope until it is reaped, exactly once, and a panic of a task stays visible
until it is re-raised, so that a scope that returned has no task left and hid no panic.
`shutdown_completes`: once the channel is closed, no schedule goes on for ever, and none gets stuck
before the scope has returned or panicked.
-/

namespace RtpMux

/-- The task was not touched by an abort. -/
def Child.Unaborted (c : Child) : Prop := c ≠ .aborting ∧ c ≠ .ended .cancelled

namespace Driver

/-- A panic of one of the tasks that was not re-raised yet. -/
def Panicked (driver : Driver) : Prop :=
  driver.stage = .ended true ∨ Child.ended .panicked ∈ driver.children

/-- What a driver can look like in a scope with this version of the signal. -/
def Ok (version : Nat) (reaping : Prop) (driver : Driver) : Prop :=
  match driver.stage with
  | .queued => ∀ c ∈ driver.children, c.Unaborted
  | .looping seen =>
    (∀ c ∈ driver.children, c.Unaborted) ∧ seen ≤ version ∧ (reaping → seen < version)
  | .aborting => Child.running ∉ driver.children
  | .ended _ => driver.children = []

end Driver

/-- The invariant of the scope. -/
structure ScopeInv (s : DriverScope) : Prop where
  places : ∀ d, (if d ∈ s.drivers then 1 else 0) + s.reaped.count d =
    if d < s.nextDriver then 1 else 0
  queued : ∀ d, d ∈ s.queue ↔ ∃ driver, s.drivers.lookup d = some driver ∧ driver.stage = .queued
  nodup : s.queue.Nodup
  capacity : s.queue.length + s.reserved ≤ s.bound
  closed : s.phase = .adopting ∨ s.phase = .reaping → s.closed = true
  drained : s.phase = .reaping ∨ s.phase = .returned → s.queue = [] ∧ s.reserved = 0
  ok : ∀ d driver, s.drivers.lookup d = some driver → driver.Ok s.version (s.phase = .reaping)
  returned : s.phase = .returned → ∀ d, d ∉ s.drivers
  visible : s.phase ≠ .panicked →
    ∀ d, d ∈ s.panics ↔ ∃ driver, s.drivers.lookup d = some driver ∧ driver.Panicked
  raised : s.phase = .panicked → s.panics ≠ []

theorem ScopeInv.init (bound : Nat) : ScopeInv (.init bound) where
  places d := by simp [DriverScope.init]
  queued d := by simp [DriverScope.init]
  nodup := .nil
  capacity := Nat.zero_le _
  closed h := by simp [DriverScope.init] at h
  drained h := by simp [DriverScope.init] at h
  ok d driver h := by simp [DriverScope.init] at h
  returned h := by simp [DriverScope.init] at h
  visible _ d := by simp [DriverScope.init]
  raised h := by simp [DriverScope.init] at h

/-! ## Steps that change one driver -/

theorem mem_set_iff {α : Type} {l : List α} {i : Nat} {old c : α} (new : α) (h : l[i]? = some old)
    (hc : c ≠ old) : c ∈ l.set i new ↔ c = new ∨ c ∈ l := by
  obtain ⟨hi, rfl⟩ := List.getElem?_eq_some_iff.mp h
  simp only [List.mem_iff_getElem?, List.getElem?_set]
  constructor
  · rintro ⟨j, hj⟩
    split at hj
    · simp_all
    · exact .inr ⟨j, hj⟩
  · rintro (rfl | ⟨j, hj⟩)
    · exact ⟨i, by simp [hi]⟩
    · refine ⟨j, ?_⟩
      rw [if_neg]
      · exact hj
      · rintro rfl
        rw [h] at hj
        exact hc (Option.some.inj hj).symm

theorem mem_eraseIdx_iff {α : Type} {l : List α} {i : Nat} {old c : α} (h : l[i]? = some old)
    (hc : c ≠ old) : c ∈ l.eraseIdx i ↔ c ∈ l := by
  refine ⟨List.mem_of_mem_eraseIdx, fun hmem => ?_⟩
  obtain ⟨j, hj⟩ := List.mem_iff_getElem?.mp hmem
  refine List.mem_eraseIdx_iff_getElem?.mpr ⟨j, ?_, hj⟩
  rintro rfl
  rw [h] at hj
  exact hc (Option.some.inj hj).symm

/-- A step that changes one driver: it stays in or out of the queue, it looks as it may, and it has
a panic exactly if its name is among the recorded ones. -/
theorem ScopeInv.update {s : DriverScope} (h : ScopeInv s) (hrunning : s.phase ≠ .returned)
    {d : DriverId} {driver driver' : Driver} (panics : List DriverId)
    (hd : s.drivers.lookup d = some driver)
    (hstage : driver'.stage = .queued ↔ driver.stage = .queued)
    (hok : driver'.Ok s.version (s.phase = .reaping))
    (hpanics : ∀ d', d' ≠ d → (d' ∈ panics ↔ d' ∈ s.panics)) (hgrow : s.panics ⊆ panics)
    (hpanicked : s.phase ≠ .panicked → (d ∈ panics ↔ driver'.Panicked)) :
    ScopeInv { s with drivers := s.drivers.insert d driver', panics := panics } := by
  have hmem : d ∈ s.drivers := AList.lookup_isSome.mp (by rw [hd]; rfl)
  refine ⟨?_, ?_, h.nodup, h.capacity, h.closed, h.drained, ?_, ?_, ?_, ?_⟩
  · intro d'
    rw [← h.places d']
    by_cases hd' : d' = d
    · subst hd'
      simp [hmem]
    · simp [AList.mem_insert, hd']
  · intro d'
    rw [h.queued d', HashMap.lookup_insert_eq]
    by_cases hd' : d' = d
    · subst hd'
      simp [hd, hstage]
    · simp [hd']
  · intro d' other hlookup
    rw [HashMap.lookup_insert_eq] at hlookup
    split at hlookup
    · obtain rfl := Option.some.inj hlookup
      exact hok
    · exact h.ok d' other hlookup
  · exact fun hreturned => absurd hreturned hrunning
  · intro hphase d'
    rw [HashMap.lookup_insert_eq]
    by_cases hd' : d' = d
    · subst hd'
      simpa using hpanicked hphase
    · rw [hpanics d' hd', h.visible hphase d', if_neg hd']
  · intro hphase hnil
    exact h.raised hphase (List.subset_nil.mp (hnil ▸ hgrow))

/-- The same when no new panic is recorded. -/
theorem ScopeInv.update_quiet {s : DriverScope} (h : ScopeInv s) (hrunning : s.phase ≠ .returned)
    {d : DriverId} {driver driver' : Driver} (hd : s.drivers.lookup d = some driver)
    (hstage : driver'.stage = .queued ↔ driver.stage = .queued)
    (hok : driver'.Ok s.version (s.phase = .reaping))
    (hpanicked : driver.Panicked ↔ driver'.Panicked) :
    ScopeInv { s with drivers := s.drivers.insert d driver' } := by
  refine h.update hrunning s.panics hd hstage hok (fun _ _ => Iff.rfl)
    (List.Subset.refl _) ?_
  intro hphase
  rw [h.visible hphase d, ← hpanicked]
  simp [hd]

namespace ScopeInv

variable {s s' : DriverScope}

/-- A task that ends by itself: a panic is recorded, and the driver has it from now on. -/
theorem childEnds (h : ScopeInv s) (hrunning : s.phase ≠ .returned) {d : DriverId} {child : Nat}
    {panics : Bool} (hst : s.childEnds d child panics = some s') : ScopeInv s' := by
  obtain ⟨driver, hd, hst⟩ := Option.bind_eq_some_iff.mp hst
  have hok := h.ok d driver hd
  have hended : ∀ old : Child, driver.children[child]? = some old → old = .running ∨
      old = .aborting →
      s' = { s.setChild d driver child (.ended (if panics then .panicked else .value ())) with
        panics := if panics then d :: s.panics else s.panics } → ScopeInv s' := by
    rintro old hold hcase rfl
    have hset := fun c hc => mem_set_iff (.ended (if panics then .panicked else .value ()))
      (c := c) hold hc
    have hne : ∀ j : Joined Unit, Child.ended j ≠ old := by
      rintro j rfl
      rcases hcase with hcase | hcase <;> cases hcase
    -- an ended task that is not cancelled was not touched by an abort
    have hunaborted : (∀ c ∈ driver.children, c.Unaborted) →
        ∀ c ∈ driver.children.set child (.ended (if panics then .panicked else .value ())),
          c.Unaborted := by
      intro hall c hc
      rcases List.mem_or_eq_of_mem_set hc with hc | rfl
      · exact hall c hc
      · cases panics <;> exact ⟨by simp, by simp⟩
    refine h.update hrunning _ hd Iff.rfl ?_ ?_ ?_ ?_
    · unfold Driver.Ok at hok ⊢
      cases hstage : driver.stage with
      | queued =>
        rw [hstage] at hok
        exact hunaborted hok
      | looping seen =>
        rw [hstage] at hok
        exact ⟨hunaborted hok.1, hok.2⟩
      | aborting =>
        rw [hstage] at hok
        intro hmem
        rcases List.mem_or_eq_of_mem_set hmem with hmem | heq
        · exact hok hmem
        · cases heq
      | ended p =>
        rw [hstage] at hok
        rw [show driver.children = [] from hok] at hold
        cases hold
    · intro d' hd'
      cases panics <;> simp [hd']
    · intro d' hd'
      cases panics <;> simp [hd']
    · intro hphase
      have hvisible := h.visible hphase d
      simp only [hd, Option.some.injEq, exists_eq_left', Driver.Panicked] at hvisible ⊢
      rw [hset _ (hne .panicked)]
      cases panics <;> simp [hvisible]
  split at hst
  · exact hended _ ‹_› (.inl rfl) (Option.some.inj hst).symm
  · exact hended _ ‹_› (.inr rfl) (Option.some.inj hst).symm
  · cases hst

/-- An abort that takes hold. Only a drain in `abort_and_reap` has aborted tasks. -/
theorem abortTakes (h : ScopeInv s) (hrunning : s.phase ≠ .returned) {d : DriverId} {child : Nat}
    (hst : s.abortTakes d child = some s') : ScopeInv s' := by
  obtain ⟨driver, hd, hst⟩ := Option.bind_eq_some_iff.mp hst
  split at hst
  · rename_i hold
    obtain rfl := Option.some.inj hst
    have hok := h.ok d driver hd
    have hmem : Child.aborting ∈ driver.children := List.mem_of_getElem? hold
    have hset := fun c hc => mem_set_iff (Child.ended .cancelled) (c := c) hold hc
    refine h.update_quiet hrunning hd Iff.rfl ?_ ?_
    · unfold Driver.Ok at hok ⊢
      cases hstage : driver.stage with
      | queued =>
        rw [hstage] at hok
        exact absurd rfl (hok _ hmem).1
      | looping seen =>
        rw [hstage] at hok
        exact absurd rfl (hok.1 _ hmem).1
      | aborting =>
        rw [hstage] at hok
        simpa [hset .running] using hok
      | ended p =>
        rw [hstage] at hok
        rw [show driver.children = [] from hok] at hold
        cases hold
    · simp [Driver.Panicked, hset (.ended .panicked)]
  · cases hst

/-- A joined task: what is kept of the driver has a panic exactly if it had one before. -/
theorem join (h : ScopeInv s) (hrunning : s.phase ≠ .returned) {d : DriverId} {child : Nat}
    (hst : s.join d child = some s') : ScopeInv s' := by
  obtain ⟨driver, hd, hst⟩ := Option.bind_eq_some_iff.mp hst
  have hok := h.ok d driver hd
  split at hst
  · rename_i joined hold
    obtain ⟨kept, hkept, rfl⟩ := Option.map_eq_some_iff.mp hst
    have hmem : Child.ended joined ∈ driver.children := List.mem_of_getElem? hold
    -- what it means for the drain to go on depends on its stage, but it goes on unless the task
    -- panicked
    have hstage : (∃ seen, driver.stage = .looping seen) ∨ driver.stage = .aborting := by
      split at hkept
      · exact .inl ⟨_, ‹_›⟩
      · exact .inr ‹_›
      · cases hkept
    have hpanic : kept = !joined.isPanic := by
      unfold Driver.Ok at hok
      rcases hstage with ⟨seen, hstage⟩ | hstage
      · rw [hstage] at hok hkept
        obtain rfl := Option.some.inj hkept
        cases joined with
        | cancelled => exact absurd rfl (hok.1 _ hmem).2
        | _ => rfl
      · rw [hstage] at hkept
        obtain rfl := Option.some.inj hkept
        cases joined <;> rfl
    subst hpanic
    cases joined with
    | panicked =>
      refine h.update_quiet hrunning hd ?_ rfl ?_
      · rcases hstage with ⟨seen, hstage⟩ | hstage <;> simp [hstage, Joined.isPanic]
      · simp [Driver.Panicked, Joined.isPanic, hmem]
    | value | cancelled =>
      refine h.update_quiet hrunning hd Iff.rfl ?_ ?_
      · have hsub := List.eraseIdx_subset (l := driver.children) (k := child)
        unfold Driver.Ok at hok ⊢
        rcases hstage with ⟨seen, hstage⟩ | hstage
        · rw [hstage] at hok
          simp only [Joined.isPanic, Bool.not_false, if_true, hstage]
          exact ⟨fun c hc => hok.1 c (hsub hc), hok.2⟩
        · rw [hstage] at hok
          simp only [Joined.isPanic, Bool.not_false, if_true, hstage]
          exact fun hc => hok (hsub hc)
      · simp [Driver.Panicked, Joined.isPanic, mem_eraseIdx_iff hold]
  · cases hst

theorem joinNone (h : ScopeInv s) (hrunning : s.phase ≠ .returned) {d : DriverId}
    (hst : s.joinNone d = some s') : ScopeInv s' := by
  obtain ⟨driver, hd, hst⟩ := Option.bind_eq_some_iff.mp hst
  split at hst
  · rename_i hstage hempty
    obtain rfl := Option.some.inj hst
    exact h.update_quiet hrunning hd (by simp [hstage]) rfl
      (by simp [Driver.Panicked, hstage, hempty])
  · rename_i hstage hempty
    obtain rfl := Option.some.inj hst
    exact h.update_quiet hrunning hd (by simp [hstage]) rfl
      (by simp [Driver.Panicked, hstage, hempty])
  · cases hst

theorem signalled (h : ScopeInv s) (hrunning : s.phase ≠ .returned) {d : DriverId}
    (hst : s.signalled d = some s') : ScopeInv s' := by
  obtain ⟨driver, hd, hst⟩ := Option.bind_eq_some_iff.mp hst
  split at hst
  · rename_i seen hstage
    split at hst
    · obtain rfl := Option.some.inj hst
      refine h.update_quiet hrunning hd (by simp [hstage]) ?_ ?_
      · intro hmem
        obtain ⟨c, -, hc⟩ := List.mem_map.mp hmem
        cases c <;> cases hc
      · simp only [Driver.Panicked, hstage, reduceCtorEq, false_or, List.mem_map]
        constructor
        · exact fun hmem => ⟨_, hmem, rfl⟩
        · rintro ⟨c, hmem, hc⟩
          cases c with
          | running => cases hc
          | aborting => cases hc
          | ended joined => exact hc ▸ hmem
    · cases hst
  · cases hst

/-! ## Steps of the scope -/

/-- A name that was not given out yet belongs to no driver. -/
theorem lookup_next (h : ScopeInv s) : s.drivers.lookup s.nextDriver = none := by
  have hplaces := h.places s.nextDriver
  rw [if_neg (Nat.lt_irrefl _)] at hplaces
  refine AList.lookup_eq_none.mpr fun hmem => ?_
  rw [if_pos hmem] at hplaces
  omega

/-- A reservation takes a place in the channel. -/
theorem reserve (h : ScopeInv s) (hrunning : s.phase ≠ .returned) (hok : s.tryReserve = .ok ()) :
    ScopeInv { s with reserved := s.reserved + 1 } := by
  unfold DriverScope.tryReserve at hok
  split at hok
  · cases hok
  · rename_i hopen
    split at hok
    · rename_i hroom
      refine ⟨h.places, h.queued, h.nodup, ?_, h.closed, ?_, h.ok, h.returned, h.visible, h.raised⟩
      · show s.queue.length + (s.reserved + 1) ≤ s.bound
        omega
      · rintro (hphase | hphase)
        · exact absurd (h.closed (.inr hphase)) hopen
        · exact absurd hphase hrunning
    · cases hok

/-- A send uses up a reservation, so there is none left to use when the drains are signalled. -/
theorem send (h : ScopeInv s) (hrunning : s.phase ≠ .returned) {children : Nat}
    (hst : s.send children = some s') : ScopeInv s' := by
  unfold DriverScope.send at hst
  split at hst
  · rename_i hreserved
    obtain rfl := Option.some.inj hst
    have hnew := h.lookup_next
    have hnotin : s.nextDriver ∉ s.drivers := AList.lookup_eq_none.mp hnew
    have hnotqueued : s.nextDriver ∉ s.queue := by
      rw [h.queued]
      simp [hnew]
    refine ⟨?_, ?_, ?_, ?_, h.closed, ?_, ?_, fun hphase => absurd hphase hrunning, ?_, h.raised⟩
    · intro d
      have hplaces := h.places d
      have hsame := h.places s.nextDriver
      simp only [AList.mem_insert]
      by_cases hd : d = s.nextDriver
      · subst hd
        rw [if_neg hnotin, if_neg (Nat.lt_irrefl _), Nat.zero_add] at hsame
        rw [if_pos (.inl rfl), if_pos (Nat.lt_succ_self _), hsame]
      · have hlt : d < s.nextDriver + 1 ↔ d < s.nextDriver := by
          rw [Nat.lt_succ_iff_lt_or_eq]
          exact or_iff_left hd
        simpa [hd, hlt] using hplaces
    · intro d
      rw [List.mem_append, List.mem_singleton, HashMap.lookup_insert_eq, h.queued]
      by_cases hd : d = s.nextDriver
      · simp [hd]
      · simp [hd]
    · exact List.nodup_append.mpr ⟨h.nodup, List.nodup_singleton _, by
        rintro d hd d' hd' rfl
        rw [List.mem_singleton.mp hd'] at hd
        exact hnotqueued hd⟩
    · have hcapacity := h.capacity
      show (s.queue ++ [_]).length + (s.reserved - 1) ≤ s.bound
      rw [List.length_append, List.length_singleton]
      omega
    · intro hphase
      have := (h.drained hphase).2
      omega
    · intro d driver hd
      rw [HashMap.lookup_insert_eq] at hd
      split at hd
      · obtain rfl := Option.some.inj hd
        intro c hc
        rw [List.eq_of_mem_replicate hc]
        exact ⟨by simp, by simp⟩
      · exact h.ok d driver hd
    · intro hphase d
      rw [h.visible hphase, HashMap.lookup_insert_eq]
      by_cases hd : d = s.nextDriver
      · subst hd
        simp [hnew, Driver.Panicked]
      · simp [hd]
  · cases hst

/-- A received driver is taken out of the queue and gets a drain, which has not seen the signal. -/
theorem receive (h : ScopeInv s) (hphase : s.phase = .serving ∨ s.phase = .adopting)
    (hst : s.receive = some s') : ScopeInv s' := by
  have hnotreaping : s.phase ≠ .reaping := by rcases hphase with hphase | hphase <;> simp [hphase]
  have hnotreturned : s.phase ≠ .returned := by rcases hphase with hphase | hphase <;> simp [hphase]
  unfold DriverScope.receive at hst
  split at hst
  · rename_i d rest hqueue
    obtain ⟨driver, hd, rfl⟩ := Option.map_eq_some_iff.mp hst
    have hnodup := h.nodup
    rw [hqueue, List.nodup_cons] at hnodup
    obtain ⟨driver', hd', hstage⟩ := (h.queued d).mp (by rw [hqueue]; exact List.mem_cons_self)
    obtain rfl := Option.some.inj (hd.symm.trans hd')
    have hok := h.ok d driver hd
    unfold Driver.Ok at hok
    rw [hstage] at hok
    have hmem : d ∈ s.drivers := AList.lookup_isSome.mp (by rw [hd]; rfl)
    refine ⟨?_, ?_, hnodup.2, ?_, h.closed, ?_, ?_, ?_, ?_, h.raised⟩
    · intro d'
      rw [← h.places d']
      by_cases hd' : d' = d
      · subst hd'
        simp [hmem]
      · simp [AList.mem_insert, hd']
    · intro d'
      have hqueued := h.queued d'
      rw [hqueue, List.mem_cons] at hqueued
      rw [HashMap.lookup_insert_eq]
      by_cases hd' : d' = d
      · subst hd'
        simp [hnodup.1]
      · simpa [hd'] using hqueued
    · have hcapacity := h.capacity
      rw [hqueue, List.length_cons] at hcapacity
      show rest.length + s.reserved ≤ s.bound
      omega
    · rintro (hphase | hphase)
      · exact absurd hphase hnotreaping
      · exact absurd hphase hnotreturned
    · intro d' other hlookup
      rw [HashMap.lookup_insert_eq] at hlookup
      split at hlookup
      · obtain rfl := Option.some.inj hlookup
        exact ⟨hok, Nat.le_refl _, fun hreaping => absurd hreaping hnotreaping⟩
      · exact h.ok d' other hlookup
    · exact fun hphase => absurd hphase hnotreturned
    · intro hp d'
      rw [h.visible hp, HashMap.lookup_insert_eq]
      by_cases hd' : d' = d
      · subst hd'
        simp [hd, hstage, Driver.Panicked]
      · simp [hd']
  · cases hst

/-- A reaped driver has nothing left: had it panicked, the panic would be re-raised here. -/
theorem reapDriver (h : ScopeInv s) (hphase : s.phase = .serving ∨ s.phase = .reaping)
    {d : DriverId}
    (hst : s.reapDriver d = some s') : ScopeInv s' := by
  have hnotreturned : s.phase ≠ .returned := by rcases hphase with hphase | hphase <;> simp [hphase]
  have hnotpanicked : s.phase ≠ .panicked := by rcases hphase with hphase | hphase <;> simp [hphase]
  obtain ⟨driver, hd, hst⟩ := Option.bind_eq_some_iff.mp hst
  split at hst
  · rename_i panicked hstage
    obtain rfl := Option.some.inj hst
    have hempty := h.ok d driver hd
    unfold Driver.Ok at hempty
    rw [hstage] at hempty
    have hmem : d ∈ s.drivers := AList.lookup_isSome.mp (by rw [hd]; rfl)
    have hvisible := h.visible hnotpanicked
    have hself : d ∈ s.panics ↔ panicked = true := by
      rw [hvisible d]
      simp [hd, Driver.Panicked, hstage, show driver.children = [] from hempty]
    refine ⟨?_, ?_, h.nodup, h.capacity, ?_, ?_, ?_, ?_, ?_, ?_⟩
    · intro d'
      rw [← h.places d']
      by_cases hd' : d' = d
      · subst hd'
        simp [hmem, AList.mem_erase, Nat.add_comm]
      · simp [AList.mem_erase, hd', Ne.symm hd']
    · intro d'
      rw [h.queued d', HashMap.lookup_erase_eq]
      by_cases hd' : d' = d
      · subst hd'
        simp [hd, hstage]
      · simp [hd']
    · cases panicked with
      | true => simp
      | false => exact h.closed
    · cases panicked with
      | true => simp
      | false => exact h.drained
    · intro d' other hlookup
      rw [HashMap.lookup_erase_eq] at hlookup
      split at hlookup
      · cases hlookup
      · have hok := h.ok d' other hlookup
        cases panicked with
        | false => exact hok
        | true =>
          unfold Driver.Ok at hok ⊢
          cases hother : other.stage with
          | looping seen =>
            rw [hother] at hok
            exact ⟨hok.1, hok.2.1, fun hreaping => by cases hreaping⟩
          | queued | aborting | ended p =>
            rw [hother] at hok
            exact hok
    · cases panicked <;> simp [hnotreturned]
    · intro hp d'
      cases panicked with
      | true => exact absurd rfl hp
      | false =>
        rw [hvisible d', HashMap.lookup_erase_eq]
        by_cases hd' : d' = d
        · subst hd'
          simpa [hvisible d'] using hself
        · simp [hd']
    · intro hp hnil
      cases panicked with
      | true =>
        rw [hnil] at hself
        simp at hself
      | false => exact hnotpanicked hp
  · cases hst

/-- The signal goes out when nothing is queued or reserved any more: every drain that runs has
subscribed before. -/
theorem signal (h : ScopeInv s) (hphase : s.phase = .adopting) (hqueue : s.queue = [])
    (hreserved : s.reserved = 0) :
    ScopeInv { s with version := s.version + 1, phase := .reaping } := by
  refine ⟨h.places, h.queued, h.nodup, h.capacity, fun _ => h.closed (.inl hphase),
    fun _ => ⟨hqueue, hreserved⟩, ?_, (fun hp => by cases hp), ?_,
    fun hp => by cases hp⟩
  · intro d driver hd
    have hok := h.ok d driver hd
    unfold Driver.Ok at hok ⊢
    cases hstage : driver.stage with
    | looping seen =>
      rw [hstage] at hok
      exact ⟨hok.1, Nat.le_succ_of_le hok.2.1, fun _ => Nat.lt_succ_of_le hok.2.1⟩
    | queued | aborting | ended p =>
      rw [hstage] at hok
      exact hok
  · exact fun _ => h.visible (by simp [hphase])

/-- The shutdown closes the channel before it adopts what was sent. -/
theorem shutdown (h : ScopeInv s) (hphase : s.phase = .serving) :
    ScopeInv { s with closed := true, phase := .adopting } := by
  refine ⟨h.places, h.queued, h.nodup, h.capacity, fun _ => rfl, ?_, ?_,
    (fun hp => by cases hp), ?_,
    fun hp => by cases hp⟩
  · rintro (hp | hp) <;> cases hp
  · intro d driver hd
    have hok := h.ok d driver hd
    simpa [Driver.Ok, hphase] using hok
  · exact fun _ => h.visible (by simp [hphase])

/-- With an empty channel and no drain there is no driver left. -/
theorem no_drivers (h : ScopeInv s) (hqueue : s.queue = []) (hdrains : s.noDrains = true)
    (d : DriverId) : d ∉ s.drivers := by
  intro hmem
  obtain ⟨driver, hd⟩ := Option.isSome_iff_exists.mp (AList.lookup_isSome.mpr hmem)
  have hstage := List.all_eq_true.mp hdrains _ (HashMap.lookup_eq_some_iff.mp hd)
  have hqueued := (h.queued d).mpr ⟨driver, hd, of_decide_eq_true hstage⟩
  rw [hqueue] at hqueued
  cases hqueued

/-- The scope returns when no drain is left. -/
theorem finish (h : ScopeInv s) (hphase : s.phase = .reaping) (hdrains : s.noDrains = true) :
    ScopeInv { s with phase := .returned } := by
  have hnone := h.no_drivers (h.drained (.inl hphase)).1 hdrains
  refine ⟨h.places, h.queued, h.nodup, h.capacity, ?_, fun _ => h.drained (.inl hphase), ?_,
    fun _ => hnone, fun _ => h.visible (by simp [hphase]), fun hp => by cases hp⟩
  · rintro (hp | hp) <;> cases hp
  · intro d driver hd
    exact absurd (AList.lookup_isSome.mp (by rw [hd]; rfl)) (hnone d)

/-- Every step of every party keeps the invariant. -/
theorem step (h : ScopeInv s) {e : ScopeEvent} (hst : s.step e = some s') : ScopeInv s' := by
  unfold DriverScope.step at hst
  split at hst
  · cases hst
  · rename_i hterminal
    have hrunning : s.phase ≠ .returned := fun hp => hterminal (.inl hp)
    cases e with
    | reserve =>
      obtain ⟨hok, rfl⟩ : s.tryReserve = .ok () ∧ { s with reserved := s.reserved + 1 } = s' := by
        simpa using hst
      exact h.reserve hrunning hok
    | send children => exact h.send hrunning hst
    | childEnds d child panics => exact h.childEnds hrunning hst
    | abortTakes d child => exact h.abortTakes hrunning hst
    | receive =>
      obtain ⟨hphase, hst⟩ := Option.ite_none_right_eq_some.mp hst
      exact h.receive hphase hst
    | join d child => exact h.join hrunning hst
    | joinNone d => exact h.joinNone hrunning hst
    | signalled d => exact h.signalled hrunning hst
    | reapDriver d =>
      obtain ⟨hphase, hst⟩ := Option.ite_none_right_eq_some.mp hst
      exact h.reapDriver hphase hst
    | shutdown =>
      obtain ⟨hphase, hst⟩ := Option.ite_none_right_eq_some.mp hst
      obtain rfl := Option.some.inj hst
      exact h.shutdown hphase
    | signal =>
      obtain ⟨⟨hphase, hqueue, hreserved⟩, hst⟩ := Option.ite_none_right_eq_some.mp hst
      obtain rfl := Option.some.inj hst
      exact h.signal hphase hqueue hreserved
    | finish =>
      obtain ⟨⟨hphase, hdrains⟩, hst⟩ := Option.ite_none_right_eq_some.mp hst
      obtain rfl := Option.some.inj hst
      exact h.finish hphase hdrains

end ScopeInv

/-- The invariant holds in every run. -/
theorem scopeInv_of_reaches {bound : Nat} {s : DriverScope} (h : (driverScope bound).Reaches s) :
    ScopeInv s :=
  h.invariant (ScopeInv.init bound) fun _ _ _ hs hst => hs.step hst

/-! ## Nothing is lost -/

/-- What the scope guarantees at any time. -/
structure ScopeSafety (s : DriverScope) : Prop where
  /-- a submitted driver is held, in the channel or by a drain, or it was reaped, exactly once -/
  owned : ∀ d < s.nextDriver,
    (d ∈ s.drivers ∧ d ∉ s.reaped) ∨ (d ∉ s.drivers ∧ s.reaped.count d = 1)
  /-- the channel never holds more than its bound -/
  bounded : s.queue.length + s.reserved ≤ s.bound
  /-- a panic of a task is still there until it is re-raised -/
  visible : s.phase ≠ .panicked →
    ∀ d ∈ s.panics, ∃ driver, s.drivers.lookup d = some driver ∧ driver.Panicked
  /-- a scope that returned reaped every driver, and no task of any of them panicked -/
  returned : s.phase = .returned →
    s.queue = [] ∧ s.reserved = 0 ∧ s.panics = [] ∧ ∀ d < s.nextDriver, s.reaped.count d = 1
  /-- the scope panics for a task that did -/
  raised : s.phase = .panicked → s.panics ≠ []

/-- **No driver is orphaned and no panic is swallowed**, for any number of groups and tasks and any
order of their steps. -/
theorem driver_scope_safety {bound : Nat} {s : DriverScope} (h : (driverScope bound).Reaches s) :
    ScopeSafety s := by
  have hinv := scopeInv_of_reaches h
  have howned : ∀ d < s.nextDriver,
      (d ∈ s.drivers ∧ d ∉ s.reaped) ∨ (d ∉ s.drivers ∧ s.reaped.count d = 1) := by
    intro d hd
    have hplaces := hinv.places d
    rw [if_pos hd] at hplaces
    by_cases hmem : d ∈ s.drivers
    · rw [if_pos hmem] at hplaces
      exact .inl ⟨hmem, List.count_eq_zero.mp (by omega)⟩
    · rw [if_neg hmem, Nat.zero_add] at hplaces
      exact .inr ⟨hmem, hplaces⟩
  refine ⟨howned, hinv.capacity, fun hphase d hd => (hinv.visible hphase d).mp hd, ?_, hinv.raised⟩
  intro hphase
  have hnone := hinv.returned hphase
  obtain ⟨hqueue, hreserved⟩ := hinv.drained (.inr hphase)
  refine ⟨hqueue, hreserved, ?_, ?_⟩
  · refine List.eq_nil_iff_forall_not_mem.mpr fun d hd => ?_
    obtain ⟨driver, hdriver, -⟩ := (hinv.visible (by simp [hphase]) d).mp hd
    exact hnone d (AList.lookup_isSome.mp (by rw [hdriver]; rfl))
  · intro d hd
    rcases howned d hd with ⟨hmem, -⟩ | ⟨-, hcount⟩
    · exact absurd hmem (hnone d)
    · exact hcount

/-- A driver that is sent after the channel was closed is adopted, aborted and reaped. -/
theorem late_driver_is_reaped :
    ∃ s, (driverScope 16).Reaches s ∧ s.phase = .returned ∧ s.reaped = [0] ∧ ScopeSafety s := by
  have hrun : ∃ s, (driverScope 16).Reaches s ∧ s.phase = .returned ∧ s.reaped = [0] :=
    ⟨_, ⟨[.reserve, .shutdown, .send 2, .receive, .signal, .signalled 0, .childEnds 0 0 false,
      .join 0 0, .abortTakes 0 0, .join 0 0, .joinNone 0, .reapDriver 0, .finish],
      Machine.run_of_exec rfl⟩, rfl, rfl⟩
  obtain ⟨s, hs, hphase, hreaped⟩ := hrun
  exact ⟨s, hs, hphase, hreaped, driver_scope_safety hs⟩

/-! ## A shutdown completes -/

/-- How far a task is from being joined. -/
def Child.weight : Child → Nat
  | .running => 3
  | .aborting => 2
  | .ended _ => 1

/-- How far a driver is from being reaped, its tasks apart. -/
def DriverStage.weight : DriverStage → Nat
  | .queued => 4
  | .looping _ => 3
  | .aborting => 2
  | .ended _ => 1

/-- What a driver and its children add to the rank. -/
def Driver.weight (driver : Driver) : Nat :=
  driver.stage.weight + (driver.children.map Child.weight).sum

/-- What the scope's own phase adds to the rank. -/
def ScopePhase.weight : ScopePhase → Nat
  | .serving => 3
  | .adopting => 2
  | .reaping => 1
  | .returned => 0
  | .panicked => 0

/-- The rank of a scope. The drivers that are still to be sent have no weight that could be known
beforehand, so the reservations come first. -/
def DriverScope.rank (s : DriverScope) : Nat ×ₗ Nat :=
  toLex (s.reserved, s.phase.weight + s.drivers.total Driver.weight)

/-- One child changes its weight. -/
theorem weight_set {l : List Child} {i : Nat} {old : Child} (new : Child) (h : l[i]? = some old) :
    ((l.set i new).map Child.weight).sum + old.weight = (l.map Child.weight).sum + new.weight := by
  induction l generalizing i with
  | nil => cases h
  | cons c l ih =>
    cases i with
    | zero =>
      obtain rfl := Option.some.inj h
      simp only [List.set_cons_zero, List.map_cons, List.sum_cons]
      omega
    | succ i =>
      have := ih h
      simp only [List.set_cons_succ, List.map_cons, List.sum_cons]
      omega

theorem weight_eraseIdx {l : List Child} {i : Nat} {old : Child} (h : l[i]? = some old) :
    ((l.eraseIdx i).map Child.weight).sum + old.weight = (l.map Child.weight).sum := by
  induction l generalizing i with
  | nil => cases h
  | cons c l ih =>
    cases i with
    | zero =>
      obtain rfl := Option.some.inj h
      simp only [List.eraseIdx_cons_zero, List.map_cons, List.sum_cons]
      omega
    | succ i =>
      have := ih h
      simp only [List.eraseIdx_cons_succ, List.map_cons, List.sum_cons]
      omega

/-- Aborting children does not make them heavier. -/
theorem weight_abort (l : List Child) :
    ((l.map Child.abort).map Child.weight).sum ≤ (l.map Child.weight).sum := by
  induction l with
  | nil => exact Nat.le_refl 0
  | cons c l ih =>
    have hc : c.abort.weight ≤ c.weight := by cases c <;> simp [Child.abort, Child.weight]
    simp only [List.map_cons, List.sum_cons]
    omega

namespace DriverScope

variable {s s' : DriverScope}

/-- A step that makes one driver lighter lowers the rank. -/
theorem rank_update {d : DriverId} {driver driver' : Driver} (panics : List DriverId)
    (hd : s.drivers.lookup d = some driver) (hlt : driver'.weight < driver.weight) :
    rank { s with drivers := s.drivers.insert d driver', panics := panics } < s.rank := by
  have htotal := HashMap.total_insert (f := Driver.weight) driver' hd
  refine Prod.Lex.toLex_lt_toLex.mpr (.inr ⟨rfl, ?_⟩)
  show s.phase.weight + HashMap.total Driver.weight (s.drivers.insert d driver') <
    s.phase.weight + HashMap.total Driver.weight s.drivers
  omega

theorem rank_childEnds {d : DriverId} {child : Nat} {panics : Bool}
    (hst : s.childEnds d child panics = some s') : s'.rank < s.rank := by
  obtain ⟨driver, hd, hst⟩ := Option.bind_eq_some_iff.mp hst
  split at hst
  · rename_i hold
    obtain rfl := Option.some.inj hst
    refine rank_update _ hd ?_
    have := weight_set (.ended (if panics then .panicked else .value ())) hold
    simp only [Driver.weight, Child.weight] at this ⊢
    omega
  · rename_i hold
    obtain rfl := Option.some.inj hst
    refine rank_update _ hd ?_
    have := weight_set (.ended (if panics then .panicked else .value ())) hold
    simp only [Driver.weight, Child.weight] at this ⊢
    omega
  · cases hst

theorem rank_abortTakes {d : DriverId} {child : Nat} (hst : s.abortTakes d child = some s') :
    s'.rank < s.rank := by
  obtain ⟨driver, hd, hst⟩ := Option.bind_eq_some_iff.mp hst
  split at hst
  · rename_i hold
    obtain rfl := Option.some.inj hst
    refine rank_update s.panics hd ?_
    have := weight_set (.ended .cancelled) hold
    simp only [Driver.weight, Child.weight] at this ⊢
    omega
  · cases hst

theorem rank_receive (hst : s.receive = some s')
    (hqueued : ∀ d ∈ s.queue, ∃ driver, s.drivers.lookup d = some driver ∧ driver.stage = .queued) :
    s'.rank < s.rank := by
  unfold DriverScope.receive at hst
  split at hst
  · rename_i d rest hqueue
    obtain ⟨driver, hd, rfl⟩ := Option.map_eq_some_iff.mp hst
    obtain ⟨driver', hd', hstage⟩ := hqueued d (by rw [hqueue]; exact List.mem_cons_self)
    obtain rfl := Option.some.inj (hd.symm.trans hd')
    refine rank_update (s := { s with queue := rest }) s.panics hd ?_
    simp only [Driver.weight, hstage, DriverStage.weight]
    omega
  · cases hst

theorem rank_join {d : DriverId} {child : Nat} (hst : s.join d child = some s') :
    s'.rank < s.rank := by
  obtain ⟨driver, hd, hst⟩ := Option.bind_eq_some_iff.mp hst
  split at hst
  · rename_i joined hold
    obtain ⟨kept, hkept, rfl⟩ := Option.map_eq_some_iff.mp hst
    refine rank_update s.panics hd ?_
    have hsum := weight_eraseIdx hold
    have hstage : 1 < driver.stage.weight := by
      split at hkept
      · rename_i hstage
        simp [hstage, DriverStage.weight]
      · rename_i hstage
        simp [hstage, DriverStage.weight]
      · cases hkept
    simp only [Child.weight] at hsum
    cases kept with
    | true =>
      simp only [if_true, Driver.weight]
      omega
    | false =>
      show 1 + 0 < driver.stage.weight + _
      omega
  · cases hst

theorem rank_joinNone {d : DriverId} (hst : s.joinNone d = some s') : s'.rank < s.rank := by
  obtain ⟨driver, hd, hst⟩ := Option.bind_eq_some_iff.mp hst
  split at hst
  · rename_i hstage hempty
    obtain rfl := Option.some.inj hst
    exact rank_update s.panics hd
      (by simp [Driver.weight, hstage, DriverStage.weight, hempty])
  · rename_i hstage hempty
    obtain rfl := Option.some.inj hst
    exact rank_update s.panics hd
      (by simp [Driver.weight, hstage, DriverStage.weight, hempty])
  · cases hst

theorem rank_signalled {d : DriverId} (hst : s.signalled d = some s') : s'.rank < s.rank := by
  obtain ⟨driver, hd, hst⟩ := Option.bind_eq_some_iff.mp hst
  split at hst
  · rename_i seen hstage
    split at hst
    · obtain rfl := Option.some.inj hst
      refine rank_update s.panics hd ?_
      have := weight_abort driver.children
      simp only [Driver.weight, hstage, DriverStage.weight]
      omega
    · cases hst
  · cases hst

theorem rank_reapDriver {d : DriverId} (hst : s.reapDriver d = some s') : s'.rank < s.rank := by
  obtain ⟨driver, hd, hst⟩ := Option.bind_eq_some_iff.mp hst
  split at hst
  · rename_i panicked hstage
    obtain rfl := Option.some.inj hst
    have htotal := HashMap.total_erase (f := Driver.weight) hd
    have hphase : (if panicked then ScopePhase.panicked else s.phase).weight ≤ s.phase.weight := by
      cases panicked
      · exact Nat.le_refl _
      · exact Nat.zero_le _
    refine Prod.Lex.toLex_lt_toLex.mpr (.inr ⟨rfl, ?_⟩)
    show (if panicked then ScopePhase.panicked else s.phase).weight +
      HashMap.total Driver.weight (s.drivers.erase d) <
        s.phase.weight + HashMap.total Driver.weight s.drivers
    simp only [Driver.weight, hstage, DriverStage.weight] at htotal ⊢
    omega
  · cases hst

/-- Once the channel is closed, every step lowers the rank: nothing is reserved any more. -/
theorem rank_step (h : ScopeInv s) (hclosed : s.closed = true) {e : ScopeEvent}
    (hst : s.step e = some s') : s'.rank < s.rank := by
  -- the rank is lexicographic: a send uses a reservation up, every other step lowers the weights
  unfold DriverScope.step at hst
  split at hst
  · cases hst
  · cases e with
    | reserve =>
      obtain ⟨hok, -⟩ := Option.ite_none_right_eq_some.mp hst
      rw [DriverScope.tryReserve, if_pos hclosed] at hok
      cases hok
    | send children =>
      unfold DriverScope.send at hst
      obtain ⟨hreserved, hst⟩ := Option.ite_none_right_eq_some.mp hst
      obtain rfl := Option.some.inj hst
      exact Prod.Lex.toLex_lt_toLex.mpr (.inl (Nat.sub_lt hreserved Nat.one_pos))
    | childEnds d child panics => exact rank_childEnds hst
    | abortTakes d child => exact rank_abortTakes hst
    | receive =>
      obtain ⟨-, hst⟩ := Option.ite_none_right_eq_some.mp hst
      exact rank_receive hst fun d hd => (h.queued d).mp hd
    | join d child => exact rank_join hst
    | joinNone d => exact rank_joinNone hst
    | signalled d => exact rank_signalled hst
    | reapDriver d =>
      obtain ⟨-, hst⟩ := Option.ite_none_right_eq_some.mp hst
      exact rank_reapDriver hst
    | shutdown =>
      obtain ⟨hphase, hst⟩ := Option.ite_none_right_eq_some.mp hst
      obtain rfl := Option.some.inj hst
      refine Prod.Lex.toLex_lt_toLex.mpr (.inr ⟨rfl, ?_⟩)
      show 2 + _ < s.phase.weight + _
      rw [hphase]
      exact Nat.add_lt_add_right (by decide) _
    | signal =>
      obtain ⟨⟨hphase, -⟩, hst⟩ := Option.ite_none_right_eq_some.mp hst
      obtain rfl := Option.some.inj hst
      refine Prod.Lex.toLex_lt_toLex.mpr (.inr ⟨rfl, ?_⟩)
      show 1 + _ < s.phase.weight + _
      rw [hphase]
      exact Nat.add_lt_add_right (by decide) _
    | finish =>
      obtain ⟨⟨hphase, -⟩, hst⟩ := Option.ite_none_right_eq_some.mp hst
      obtain rfl := Option.some.inj hst
      refine Prod.Lex.toLex_lt_toLex.mpr (.inr ⟨rfl, ?_⟩)
      show 0 + _ < s.phase.weight + _
      rw [hphase]
      exact Nat.add_lt_add_right (by decide) _

/-- A closed channel stays closed. -/
theorem closed_of_step (hclosed : s.closed = true) {e : ScopeEvent} (hst : s.step e = some s') :
    s'.closed = true := by
  unfold DriverScope.step at hst
  split at hst
  · cases hst
  · cases e <;> simp only [send, childEnds, abortTakes, receive, join, joinNone, signalled,
      reapDriver, setChild, Option.bind_eq_bind, Option.bind_eq_some_iff] at hst
    all_goals grind [Option.map_eq_some_iff, Option.bind_eq_some_iff]

/-- In `abort_and_reap` a drain can always go on: an aborted task stops, an ended one is joined. -/
theorem aborting_progress (h : ScopeInv s) (hphase : s.phase = .reaping) {d : DriverId}
    {driver : Driver} (hd : s.drivers.lookup d = some driver) (hstage : driver.stage = .aborting) :
    ∃ e, (s.step e).isSome = true := by
  have hok := h.ok d driver hd
  unfold Driver.Ok at hok
  rw [hstage] at hok
  have hterminal : ¬ (s.phase = .returned ∨ s.phase = .panicked) := by simp [hphase]
  rcases hchildren : driver.children with _ | ⟨c, rest⟩
  · refine ⟨.joinNone d, ?_⟩
    rw [DriverScope.step, if_neg hterminal]
    simp only [joinNone, hd, Option.bind_eq_bind, Option.bind_some, hstage, hchildren,
      Option.isSome_some]
  · cases c with
    | running =>
      rw [hchildren] at hok
      exact absurd List.mem_cons_self hok
    | aborting =>
      refine ⟨.abortTakes d 0, ?_⟩
      rw [DriverScope.step, if_neg hterminal]
      simp only [abortTakes, hd, Option.bind_eq_bind, Option.bind_some, hchildren,
        List.getElem?_cons_zero, Option.isSome_some]
    | ended joined =>
      refine ⟨.join d 0, ?_⟩
      rw [DriverScope.step, if_neg hterminal]
      simp only [join, hd, Option.bind_eq_bind, Option.bind_some, hchildren,
        List.getElem?_cons_zero, hstage, Option.map_some, Option.isSome_some]

/-- Until the scope has returned or panicked, some step is enabled. -/
theorem progress (h : ScopeInv s) (hreturned : s.phase ≠ .returned)
    (hpanicked : s.phase ≠ .panicked) : ∃ e, (s.step e).isSome = true := by
  -- in every phase before the last some event is enabled
  have hterminal : ¬ (s.phase = .returned ∨ s.phase = .panicked) := by simp [hreturned, hpanicked]
  cases hphase : s.phase with
  | returned => exact absurd hphase hreturned
  | panicked => exact absurd hphase hpanicked
  | serving =>
    refine ⟨.shutdown, ?_⟩
    rw [DriverScope.step, if_neg hterminal]
    simp [hphase]
  | adopting =>
    rcases hqueue : s.queue with _ | ⟨d, rest⟩
    · by_cases hreserved : s.reserved = 0
      · refine ⟨.signal, ?_⟩
        rw [DriverScope.step, if_neg hterminal]
        simp [hphase, hqueue, hreserved]
      · refine ⟨.send 0, ?_⟩
        rw [DriverScope.step, if_neg hterminal]
        simp [send, Nat.pos_of_ne_zero hreserved]
    · obtain ⟨driver, hd, -⟩ := (h.queued d).mp (by rw [hqueue]; exact List.mem_cons_self)
      refine ⟨.receive, ?_⟩
      rw [DriverScope.step, if_neg hterminal]
      simp only [hphase, or_true, if_true, receive, hqueue, hd, Option.map_some, Option.isSome_some]
  | reaping =>
    by_cases hdrains : s.noDrains = true
    · refine ⟨.finish, ?_⟩
      rw [DriverScope.step, if_neg hterminal]
      simp [hphase, hdrains]
    · have hdrain : ∃ d driver, s.drivers.lookup d = some driver ∧ driver.stage ≠ .queued := by
        unfold noDrains at hdrains
        rw [List.all_eq_true] at hdrains
        push Not at hdrains
        obtain ⟨⟨d, driver⟩, hmem, hstage⟩ := hdrains
        exact ⟨d, driver, HashMap.lookup_eq_some_iff.mpr hmem, by simpa using hstage⟩
      obtain ⟨d, driver, hd, hnotqueued⟩ := hdrain
      cases hstage : driver.stage with
      | queued => exact absurd hstage hnotqueued
      | looping seen =>
        have hok := h.ok d driver hd
        unfold Driver.Ok at hok
        rw [hstage] at hok
        have hne : seen ≠ s.version := Nat.ne_of_lt (hok.2.2 hphase)
        refine ⟨.signalled d, ?_⟩
        rw [DriverScope.step, if_neg hterminal]
        simp only [signalled, hd, Option.bind_eq_bind, Option.bind_some, hstage, if_pos hne,
          Option.isSome_some]
      | aborting => exact aborting_progress h hphase hd hstage
      | ended panicked =>
        refine ⟨.reapDriver d, ?_⟩
        rw [DriverScope.step, if_neg hterminal]
        simp only [hphase, or_true, if_true, reapDriver, hd, Option.bind_eq_bind,
          Option.bind_some, hstage, Option.isSome_some]

end DriverScope

/-- **A shutdown completes**: once the channel is closed no schedule of the scope and its tasks goes
on for ever, and every schedule ends where the scope has returned or has re-raised a panic. -/
theorem shutdown_completes {bound : Nat} {s : DriverScope} (h : (driverScope bound).Reaches s)
    (hclosed : s.closed = true) :
    (∀ f : ℕ → DriverScope, f 0 = s → ∃ n, ∀ e, (f n).step e ≠ some (f (n + 1))) ∧
      ∀ es s', (driverScope bound).Run (fun _ _ => True) s es s' → (∀ e, s'.step e = none) →
        s'.phase = .returned ∨ s'.phase = .panicked := by
  have hstep : ∀ s e s', (ScopeInv s ∧ s.closed = true) → (driverScope bound).step s e = some s' →
      ScopeInv s' ∧ s'.closed = true :=
    fun s e s' hs hst => ⟨hs.1.step hst, DriverScope.closed_of_step hs.2 hst⟩
  have hs : ScopeInv s ∧ s.closed = true := ⟨scopeInv_of_reaches h, hclosed⟩
  have hhalts : (driverScope bound).Halts s :=
    Machine.halts_of_rank (r := (· < ·)) wellFounded_lt DriverScope.rank hstep
      (fun s e s' hs hst => DriverScope.rank_step hs.1 hs.2 hst) hs
  refine ⟨fun f h0 => hhalts.not_infinite f h0, ?_⟩
  intro es s' hrun hstuck
  obtain ⟨hinv, -⟩ := hrun.preserves (fun s e s' hs _ hst => hstep s e s' hs hst) hs
  by_contra hphase
  push Not at hphase
  obtain ⟨e, henabled⟩ := DriverScope.progress hinv hphase.1 hphase.2
  rw [hstuck e] at henabled
  cases henabled

/-- A shutdown between a reservation and its send. -/
theorem shutdown_completes_reserved :
    ∃ s, (driverScope 16).Reaches s ∧ s.closed = true ∧ s.reserved = 1 ∧
      ∀ es s', (driverScope 16).Run (fun _ _ => True) s es s' → (∀ e, s'.step e = none) →
        s'.phase = .returned ∨ s'.phase = .panicked := by
  have hrun : ∃ s, (driverScope 16).Reaches s ∧ s.closed = true ∧ s.reserved = 1 :=
    ⟨_, ⟨[.reserve, .shutdown], Machine.run_of_exec rfl⟩, rfl, rfl⟩
  obtain ⟨s, hs, hclosed, hreserved⟩ := hrun
  exact ⟨s, hs, hclosed, hreserved, (shutdown_completes hs hclosed).2⟩

/-! ## The submission channel of the session groups

`SessionGroups` has the submission channel alone, with a reservation and its send in one step. It is
the channel of a scope: every run of the groups is matched by a run of the scope that does the same
to it. -/

/-- The scope has the channel of the groups, and was given the drivers they created. -/
structure SameChannel (g : SessionGroups) (s : DriverScope) : Prop where
  channel : g.drivers = ⟨s.bound, s.queue, s.closed⟩
  next : g.nextRouter = s.nextDriver
  reserved : s.reserved = 0
  phase : s.phase = if s.closed then .adopting else .serving

/-- The scope has not returned. -/
theorem SameChannel.running {g : SessionGroups} {s : DriverScope} (h : SameChannel g s) :
    ¬ (s.phase = .returned ∨ s.phase = .panicked) := by
  rw [h.phase]
  split <;> simp

theorem SameChannel.of_eq {g g' : SessionGroups} {s : DriverScope} (h : SameChannel g s)
    (hdrivers : g'.drivers = g.drivers) (hnext : g'.nextRouter = g.nextRouter) : SameChannel g' s :=
  ⟨hdrivers.trans h.channel, hnext.trans h.next, h.reserved, h.phase⟩

/-- A join that creates a group reserves a slot and sends the driver at once. -/
theorem SameChannel.lookup {bound : Nat} {g g' : SessionGroups} {s : DriverScope}
    (h : SameChannel g s) (hs : (driverScope bound).Reaches s) {join : JoinId} {token : GroupToken}
    {opener : OpenerId} (hst : g.lookup join token opener = some g') :
    ∃ s', (driverScope bound).Reaches s' ∧ SameChannel g' s' := by
  unfold SessionGroups.lookup at hst
  split at hst
  · cases hst
  · dsimp only at hst
    split at hst
    · obtain rfl := Option.some.inj hst
      exact ⟨s, hs, h.of_eq rfl rfl⟩
    · split at hst
      · rename_i hreserve
        obtain rfl := Option.some.inj hst
        have hok : s.tryReserve = .ok () := by
          rw [DriverScope.tryReserve, h.reserved]
          simpa [SessionGroups.tryReserve, h.channel] using hreserve
        have hfirst : (driverScope bound).step s .reserve = some { s with reserved := 1 } := by
          show s.step .reserve = _
          rw [DriverScope.step, if_neg h.running]
          simp [hok, h.reserved]
        have hsecond : (driverScope bound).step { s with reserved := 1 } (.send 1) = some
            { s with
              queue := s.queue ++ [s.nextDriver]
              reserved := 0
              drivers := s.drivers.insert s.nextDriver ⟨.queued, [.running]⟩
              nextDriver := s.nextDriver + 1 } := by
          exact if_neg h.running
        refine ⟨_, (hs.tail trivial hfirst).tail trivial hsecond, ?_, ?_, rfl, h.phase⟩
        · simp [SessionGroups.createPair, h.channel, h.next]
        · exact congrArg (· + 1) h.next
      · obtain rfl := Option.some.inj hst
        exact ⟨s, hs, h.of_eq rfl rfl⟩

/-- The scope takes a driver from the channel. -/
theorem SameChannel.receive {bound : Nat} {g : SessionGroups} {s : DriverScope}
    (h : SameChannel g s) (hs : (driverScope bound).Reaches s) :
    ∃ s', (driverScope bound).Reaches s' ∧
      SameChannel { g with drivers := { g.drivers with queue := g.drivers.queue.tail } } s' := by
  rcases hqueue : s.queue with _ | ⟨d, rest⟩
  · exact ⟨s, hs, by simp [h.channel, hqueue], h.next, h.reserved, h.phase⟩
  · obtain ⟨driver, hd, -⟩ := ((scopeInv_of_reaches hs).queued d).mp (by simp [hqueue])
    have hphase : s.phase = .serving ∨ s.phase = .adopting := by
      rw [h.phase]
      split <;> simp
    have hst : (driverScope bound).step s .receive = some { s with
        queue := rest
        drivers := s.drivers.insert d { driver with stage := .looping s.version } } := by
      show s.step .receive = _
      rw [DriverScope.step, if_neg h.running]
      simp [hphase, DriverScope.receive, hqueue, hd]
    exact ⟨_, hs.tail trivial hst, by simp [h.channel, hqueue], h.next, h.reserved, h.phase⟩

/-- The scope closes the channel. -/
theorem SameChannel.close {bound : Nat} {g : SessionGroups} {s : DriverScope}
    (h : SameChannel g s) (hs : (driverScope bound).Reaches s) :
    ∃ s', (driverScope bound).Reaches s' ∧
      SameChannel { g with drivers := { g.drivers with closed := true } } s' := by
  cases hclosed : s.closed with
  | true => exact ⟨s, hs, by simp [h.channel, hclosed], h.next, h.reserved, h.phase⟩
  | false =>
    have hst : (driverScope bound).step s .shutdown =
        some { s with closed := true, phase := .adopting } := by
      show s.step .shutdown = _
      rw [DriverScope.step, if_neg h.running]
      simp [h.phase, hclosed]
    exact ⟨_, hs.tail trivial hst, by simp [h.channel], h.next, h.reserved, rfl⟩

/-- **The scope owns what the groups submit**: whatever the joins did, the drivers they created are
those of a reachable scope with the same channel, to which `driver_scope_safety` and
`shutdown_completes` apply. -/
theorem groups_submit_to_scope {bound : Nat} {g : SessionGroups}
    (h : (sessionGroups bound).Reaches g) :
    ∃ s, (driverScope bound).Reaches s ∧ SameChannel g s ∧
      ∀ router < g.nextRouter, (router ∈ s.drivers ∧ router ∉ s.reaped) ∨
        (router ∉ s.drivers ∧ s.reaped.count router = 1) := by
  obtain ⟨s, hs, hsame⟩ : ∃ s, (driverScope bound).Reaches s ∧ SameChannel g s := by
    refine h.invariant (I := fun g => ∃ s, (driverScope bound).Reaches s ∧ SameChannel g s)
      ⟨_, ⟨[], .nil _⟩, rfl, rfl, rfl, rfl⟩ ?_
    rintro g e g' ⟨s, hs, hsame⟩ hst
    replace hst : g.step e = some g' := hst
    -- a step of the registry is one of the scope, several, or none
    cases e with
    | lookup join token opener => exact hsame.lookup hs hst
    | receiveDriver =>
      obtain rfl := Option.some.inj hst
      exact hsame.receive hs
    | closeScope =>
      obtain rfl := Option.some.inj hst
      exact hsame.close hs
    | openerDies opener =>
      obtain rfl := Option.some.inj hst
      exact ⟨s, hs, hsame.of_eq rfl rfl⟩
    | writerDies writer =>
      obtain rfl := Option.some.inj hst
      exact ⟨s, hs, hsame.of_eq rfl rfl⟩
    | commit join =>
      refine ⟨s, hs, ?_⟩
      simp only [SessionGroups.step, SessionGroups.commit] at hst
      split at hst <;> try cases hst
      split at hst <;> try cases hst
      split at hst <;> obtain rfl := Option.some.inj hst <;> exact hsame.of_eq rfl rfl
    | registerWriter member writer =>
      refine ⟨s, hs, ?_⟩
      simp only [SessionGroups.step, SessionGroups.registerWriter] at hst
      split at hst <;> try cases hst
      split at hst <;> try cases hst
      exact hsame.of_eq rfl rfl
    | advance pair =>
      refine ⟨s, hs, ?_⟩
      simp only [SessionGroups.step, SessionGroups.advance] at hst
      split at hst <;> try cases hst
      split at hst <;> first | cases hst; exact hsame.of_eq rfl rfl | cases hst
    | dropMember member =>
      refine ⟨s, hs, ?_⟩
      simp only [SessionGroups.step, SessionGroups.dropMember] at hst
      split at hst <;> try cases hst
      split at hst <;> try cases hst
      exact hsame.of_eq rfl rfl
    | release holder =>
      refine ⟨s, hs, ?_⟩
      simp only [SessionGroups.step, SessionGroups.release] at hst
      split at hst <;> try cases hst
      · exact hsame.of_eq rfl rfl
      · exact hsame.of_eq rfl rfl
  exact ⟨s, hs, hsame, fun router hrouter =>
    (driver_scope_safety hs).owned router (hsame.next ▸ hrouter)⟩

/-- One group was created and the scope is closing. -/
theorem groups_submit_to_scope_one :
    ∃ g, (sessionGroups 16).Reaches g ∧ g.nextRouter = 1 ∧
      ∃ s, (driverScope 16).Reaches s ∧ SameChannel g s := by
  have hrun : ∃ g, (sessionGroups 16).Reaches g ∧ g.nextRouter = 1 :=
    ⟨_, ⟨[.lookup 1 ⟨7⟩ 3, .closeScope], Machine.run_of_exec rfl⟩, rfl⟩
  obtain ⟨g, hg, hnext⟩ := hrun
  obtain ⟨s, hs, hsame, -⟩ := groups_submit_to_scope hg
  exact ⟨g, hg, hnext, s, hs, hsame⟩

end RtpMux

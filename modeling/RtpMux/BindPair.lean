import RtpMux.ServeLoop

/-!
# Binding the two listeners (`RtpMuxServer::bind` in `server.rs`, `bulk_lane_addr` in `shared.rs`)

The bulk listener sits on the port after the interactive one, so the two are acquired as a unit.
When the port after an ephemeral draw is taken, or there is none, the interactive listener is
dropped and another port is drawn, up to `EPHEMERAL_PAIR_ATTEMPTS` times; a port that the caller
named does not move.

The operating system is a function from the number of the call and the address to the address that
was bound or an error: other processes come and go between calls, so nothing relates one answer to
the next. `Sockets` has the listeners that the process holds, and the calls it made, which no step
reads but for their number.
-/

namespace RtpMux

/-- `SocketAddr::port`. -/
def SocketAddr.port : SocketAddr → UInt16
  | .v4 _ port => port
  | .v6 _ port _ _ => port

/-- `SocketAddr::set_port`. -/
def SocketAddr.setPort (addr : SocketAddr) (port : UInt16) : SocketAddr :=
  match addr with
  | .v4 ip _ => .v4 ip port
  | .v6 ip _ flowinfo scopeId => .v6 ip port flowinfo scopeId

/-- `SocketAddr::new`, which knows no flow and no scope. -/
def SocketAddr.new (ip : IpAddr) (port : UInt16) : SocketAddr :=
  match ip with
  | .v4 octets => .v4 octets port
  | .v6 segments => .v6 segments port 0 0

/-- An `io::Error` of the socket calls. -/
structure SocketError where
  kind : ErrorKind
  message : String
  deriving DecidableEq, Repr

/-- `bulk_lane_addr`. -/
def bulkLaneAddr (interactive : SocketAddr) : Except SocketError SocketAddr :=
  if interactive.port = 65535 then
    .error ⟨.invalidInput, "RTP mux bulk lane port overflows u16"⟩
  else .ok (interactive.setPort (interactive.port + 1))

/-- `EPHEMERAL_PAIR_ATTEMPTS`. -/
def ephemeralPairAttempts : Nat := 64

/-- A bound listener: the number of the call that bound it, and its `local_addr`. -/
structure Listener where
  call : Nat
  addr : SocketAddr
  deriving DecidableEq, Repr

/-- The answers to the calls of `Listener::bind`. -/
abbrev Os : Type := Nat → SocketAddr → Except SocketError SocketAddr

/-- The calls so far with their answers, and the listeners that are held. -/
structure Sockets where
  calls : List (SocketAddr × Except SocketError SocketAddr)
  held : List Listener
  deriving Repr

/-- What `bind` is documented to do: a named port is bound as it is, and port zero is replaced by
one of the system's choice, at the same IP address. -/
def Os.Honest (os : Os) : Prop :=
  ∀ call addr bound, os call addr = .ok bound →
    bound.ip = addr.ip ∧ (addr.port ≠ 0 → bound = addr)

namespace Sockets

/-- `rtp::udp::Listener::bind`. -/
def bind (os : Os) (w : Sockets) (addr : SocketAddr) : Except SocketError Listener × Sockets :=
  let answer := os w.calls.length addr
  let calls := w.calls ++ [(addr, answer)]
  match answer with
  | .ok bound =>
    let listener : Listener := ⟨w.calls.length, bound⟩
    (.ok listener, ⟨calls, w.held ++ [listener]⟩)
  | .error error => (.error error, ⟨calls, w.held⟩)

/-- A listener goes out of scope. -/
def drop (w : Sockets) (listener : Listener) : Sockets :=
  { w with held := w.held.erase listener }

end Sockets

/-- The result of a bind; `none` is the panic of an `expect`. -/
abbrev PairResult : Type := Option (Except SocketError (Listener × Listener))

/-- The loop of `bind_adjacent_pair`, with the attempts that are left. -/
def bindAttempts (os : Os) (requested : SocketAddr) (ephemeral : Bool) :
    Nat → Sockets → SocketAddr → Option SocketError → PairResult × Sockets
  | 0, w, _, lastCollision => (lastCollision.map .error, w)
  | attempts + 1, w, candidate, _ =>
    match w.bind os candidate with
    | (.error error, w) => (some (.error error), w)
    | (.ok interactive, w) =>
      match bulkLaneAddr interactive.addr with
      | .error error =>
        if ephemeral then
          bindAttempts os requested ephemeral attempts (w.drop interactive)
            (.new requested.ip 0) (some error)
        else (some (.error error), w.drop interactive)
      | .ok bulkAddr =>
        match w.bind os bulkAddr with
        | (.ok bulk, w) => (some (.ok (interactive, bulk)), w)
        | (.error error, w) =>
          if ephemeral && decide (error.kind = .addrInUse) then
            bindAttempts os requested ephemeral attempts (w.drop interactive)
              (.new requested.ip 0) (some error)
          else (some (.error error), w.drop interactive)

/-- `bind_adjacent_pair`. -/
def bindAdjacentPair (os : Os) (w : Sockets) (requested : SocketAddr) (ephemeral : Bool) :
    PairResult × Sockets :=
  bindAttempts os requested ephemeral (if ephemeral then ephemeralPairAttempts else 1) w
    requested none

/-- The loop of `RtpMuxServer::bind` over the resolved addresses. -/
def bindFirst (os : Os) : List SocketAddr → Sockets → Option SocketError → PairResult × Sockets
  | [], w, lastError => (lastError.map .error, w)
  | interactiveAddr :: rest, w, _ =>
    match bindAdjacentPair os w interactiveAddr (decide (interactiveAddr.port = 0)) with
    | (some (.ok pair), w) => (some (.ok pair), w)
    | (some (.error error), w) => bindFirst os rest w (some error)
    | (none, w) => (none, w)

/-- `RtpMuxServer::bind`, after `resolve_bind_addrs`. -/
def bindServer (os : Os) (requested : List SocketAddr) : PairResult × Sockets :=
  bindFirst os requested ⟨[], []⟩ none

/-! ## One attempt -/

/-- The bulk lane has the next port. -/
theorem bulkLaneAddr_ok {interactive bulk : SocketAddr} (h : bulkLaneAddr interactive = .ok bulk) :
    interactive.port ≠ 65535 ∧ bulk = interactive.setPort (interactive.port + 1) := by
  unfold bulkLaneAddr at h
  split at h
  · cases h
  · exact ⟨‹_›, (Except.ok.inj h).symm⟩

theorem port_setPort (addr : SocketAddr) (port : UInt16) : (addr.setPort port).port = port := by
  cases addr <;> rfl

/-- The port after one that has a successor is not zero: the system will not draw another one. -/
theorem bulkLaneAddr_port_ne {interactive bulk : SocketAddr}
    (h : bulkLaneAddr interactive = .ok bulk) : bulk.port ≠ 0 := by
  obtain ⟨hport, rfl⟩ := bulkLaneAddr_ok h
  rw [port_setPort]
  intro hzero
  apply hport
  have hlt := interactive.port.toNat_lt
  have hsum := congrArg UInt16.toNat hzero
  rw [UInt16.toNat_add] at hsum
  apply UInt16.toNat_inj.mp
  simp at hsum ⊢
  omega

theorem ip_new (ip : IpAddr) (port : UInt16) : (SocketAddr.new ip port).ip = ip := by
  cases ip <;> rfl

/-- Where the two listeners of a pair are. -/
structure AdjacentPair (requested : SocketAddr) (interactive bulk : Listener) : Prop where
  successor : bulkLaneAddr interactive.addr = .ok bulk.addr
  ip : interactive.addr.ip = requested.ip
  named : requested.port ≠ 0 → interactive.addr = requested
  distinct : interactive.call ≠ bulk.call

/-- Why a bind failed: the last call did, or it bound a port without a successor. -/
def FailedBy (w : Sockets) (error : SocketError) : Prop :=
  (∃ addr, w.calls.getLast? = some (addr, .error error)) ∨
    ∃ addr bound, w.calls.getLast? = some (addr, .ok bound) ∧ bulkLaneAddr bound = .error error

/-- What a bind leaves behind: the pair and nothing else, or nothing. It does not panic. -/
inductive Leaves (requested : List SocketAddr) (w : Sockets) : PairResult → Prop where
  | pair {addr : SocketAddr} {interactive bulk : Listener} (tried : addr ∈ requested)
      (adjacent : AdjacentPair addr interactive bulk) (held : w.held = [interactive, bulk]) :
      Leaves requested w (some (.ok (interactive, bulk)))
  | failed {error : SocketError} (held : w.held = []) (reason : FailedBy w error) :
      Leaves requested w (some (.error error))

/-- A call of `bind` is one more call, and holds one more listener if it succeeds. -/
theorem bind_cases (os : Os) (w : Sockets) (addr : SocketAddr) :
    (∃ bound, os w.calls.length addr = .ok bound ∧
      w.bind os addr = (.ok ⟨w.calls.length, bound⟩,
        ⟨w.calls ++ [(addr, .ok bound)], w.held ++ [⟨w.calls.length, bound⟩]⟩)) ∨
      ∃ error, w.bind os addr = (.error error, ⟨w.calls ++ [(addr, .error error)], w.held⟩) := by
  unfold Sockets.bind
  cases h : os w.calls.length addr with
  | ok bound => exact .inl ⟨bound, rfl, rfl⟩
  | error error => exact .inr ⟨error, rfl⟩

section Attempts

variable {os : Os} {requested : SocketAddr} {ephemeral : Bool} {all : List SocketAddr}

/-- The loop, from any attempt on: it holds nothing when it begins an attempt. -/
theorem bindAttempts_leaves (hos : os.Honest) (hmem : requested ∈ all)
    (hephemeral : ephemeral = decide (requested.port = 0)) :
    ∀ (attempts : Nat) (w : Sockets) (candidate : SocketAddr) (lastCollision : Option SocketError),
      w.held = [] → candidate.ip = requested.ip →
      (requested.port ≠ 0 → candidate = requested) →
      (0 < attempts ∨ ∃ error, lastCollision = some error ∧ FailedBy w error) →
      Leaves all (bindAttempts os requested ephemeral attempts w candidate lastCollision).2
          (bindAttempts os requested ephemeral attempts w candidate lastCollision).1 ∧
        (bindAttempts os requested ephemeral attempts w candidate lastCollision).2.calls.length ≤
          w.calls.length + 2 * attempts := by
  intro attempts
  induction attempts with
  | zero =>
    rintro w candidate lastCollision hheld - - (hlt | ⟨error, rfl, hreason⟩)
    · exact absurd hlt (Nat.lt_irrefl 0)
    · exact ⟨.failed hheld hreason, Nat.le_add_right _ _⟩
  | succ attempts ih =>
    intro w candidate lastCollision hheld hip hnamed _
    rw [bindAttempts]
    rcases bind_cases os w candidate with ⟨bound, hbound, hbind⟩ | ⟨error, hbind⟩
    · rw [hbind]
      -- the next attempt begins without the interactive listener of this one
      have hdrop : ∀ calls, (Sockets.drop ⟨calls, w.held ++ [⟨w.calls.length, bound⟩]⟩
          ⟨w.calls.length, bound⟩).held = [] := by
        intro calls
        simp [Sockets.drop, hheld]
      have hretry : requested.port ≠ 0 → ephemeral ≠ true := by
        intro hport he
        rw [hephemeral, decide_eq_true_eq] at he
        exact hport he
      cases hbulk : bulkLaneAddr bound with
      | error error =>
        have hreason : FailedBy
            (Sockets.drop ⟨w.calls ++ [(candidate, .ok bound)], w.held ++ [⟨w.calls.length, bound⟩]⟩
              ⟨w.calls.length, bound⟩) error :=
          .inr ⟨candidate, bound, by simp [Sockets.drop], hbulk⟩
        simp only [hbulk]
        split
        · rename_i he
          have hnext := ih _ (.new requested.ip 0) (some error) (hdrop _) (ip_new _ _)
            (fun hport => absurd he (hretry hport)) (.inr ⟨error, rfl, hreason⟩)
          refine ⟨hnext.1, hnext.2.trans ?_⟩
          simp only [Sockets.drop, List.length_append, List.length_singleton]
          omega
        · refine ⟨.failed (hdrop _) hreason, ?_⟩
          simp only [Sockets.drop, List.length_append, List.length_singleton]
          omega
      | ok bulkAddr =>
        simp only [hbulk]
        rcases bind_cases os ⟨w.calls ++ [(candidate, .ok bound)],
          w.held ++ [⟨w.calls.length, bound⟩]⟩ bulkAddr with ⟨second, hsecond,
            hbind'⟩ | ⟨error, hbind'⟩
        · rw [hbind']
          have hexact : second = bulkAddr := (hos _ _ _ hsecond).2 (bulkLaneAddr_port_ne hbulk)
          subst hexact
          refine ⟨.pair hmem ⟨hbulk, ?_, ?_, ?_⟩ (by simp [hheld]), ?_⟩
          · exact (hos _ _ _ hbound).1.trans hip
          · intro hport
            have hcandidate := hnamed hport
            subst hcandidate
            exact (hos _ _ _ hbound).2 hport
          · simp
          · simp only [List.length_append, List.length_singleton]
            omega
        · rw [hbind']
          have hreason : FailedBy (Sockets.drop ⟨w.calls ++ [(candidate, .ok bound)] ++
              [(bulkAddr, .error error)], w.held ++ [⟨w.calls.length, bound⟩]⟩
              ⟨w.calls.length, bound⟩) error :=
            .inl ⟨bulkAddr, by simp [Sockets.drop]⟩
          dsimp only
          split
          · rename_i he
            rw [Bool.and_eq_true] at he
            have hnext := ih _ (.new requested.ip 0) (some error) (hdrop _) (ip_new _ _)
              (fun hport => absurd he.1 (hretry hport)) (.inr ⟨error, rfl, hreason⟩)
            refine ⟨hnext.1, hnext.2.trans ?_⟩
            simp only [Sockets.drop, List.length_append, List.length_singleton]
            omega
          · refine ⟨.failed (hdrop _) hreason, ?_⟩
            simp only [Sockets.drop, List.length_append, List.length_singleton]
            omega
    · rw [hbind]
      refine ⟨.failed hheld (.inl ⟨candidate, by simp⟩), ?_⟩
      simp only [List.length_append, List.length_singleton]
      omega

end Attempts

/-- Trying one address. -/
theorem bindAdjacentPair_leaves {os : Os} (hos : os.Honest) {requested : SocketAddr}
    {all : List SocketAddr} (hmem : requested ∈ all) {w : Sockets} (hheld : w.held = []) :
    Leaves all (bindAdjacentPair os w requested (decide (requested.port = 0))).2
        (bindAdjacentPair os w requested (decide (requested.port = 0))).1 ∧
      (bindAdjacentPair os w requested (decide (requested.port = 0))).2.calls.length ≤
        w.calls.length + 2 * ephemeralPairAttempts := by
  have h := bindAttempts_leaves hos hmem rfl
    (if decide (requested.port = 0) = true then ephemeralPairAttempts else 1) w requested none hheld
    rfl (fun _ => rfl) (.inl (by split <;> decide))
  refine ⟨h.1, h.2.trans ?_⟩
  have hle : (if decide (requested.port = 0) = true then ephemeralPairAttempts else 1) ≤
      ephemeralPairAttempts := by
    split <;> decide
  omega

/-- **Binding the server** never panics and leaks no listener: it returns a pair on two adjacent
ports of an address that was asked for, or it has given up everything it bound. -/
theorem bind_leaves_pair_or_nothing {os : Os} (hos : os.Honest) {requested : List SocketAddr}
    (hne : requested ≠ []) :
    Leaves requested (bindServer os requested).2 (bindServer os requested).1 ∧
      (bindServer os requested).2.calls.length ≤
        2 * ephemeralPairAttempts * requested.length := by
  have hloop : ∀ (rest : List SocketAddr) (w : Sockets) (lastError : Option SocketError),
      (∀ addr ∈ rest, addr ∈ requested) → w.held = [] →
      (rest ≠ [] ∨ ∃ error, lastError = some error ∧ FailedBy w error) →
      Leaves requested (bindFirst os rest w lastError).2 (bindFirst os rest w lastError).1 ∧
        (bindFirst os rest w lastError).2.calls.length ≤
          w.calls.length + 2 * ephemeralPairAttempts * rest.length := by
    intro rest
    induction rest with
    | nil =>
      rintro w lastError - hheld (hne | ⟨error, rfl, hreason⟩)
      · exact absurd rfl hne
      · exact ⟨.failed hheld hreason, Nat.le_refl _⟩
    | cons addr rest ih =>
      intro w lastError hsub hheld _
      have hone := bindAdjacentPair_leaves hos (hsub addr List.mem_cons_self) hheld
      rw [bindFirst]
      generalize bindAdjacentPair os w addr (decide (addr.port = 0)) = result at hone ⊢
      obtain ⟨result, w'⟩ := result
      obtain ⟨hleaves, hcalls⟩ := hone
      rw [List.length_cons, Nat.mul_succ]
      cases hleaves with
      | pair tried adjacent held =>
        exact ⟨.pair tried adjacent held, by dsimp only at hcalls ⊢; omega⟩
      | failed held reason =>
        have hnext := ih w' (some _) (fun a ha => hsub a (List.mem_cons_of_mem _ ha)) held
          (.inr ⟨_, rfl, reason⟩)
        refine ⟨hnext.1, hnext.2.trans ?_⟩
        dsimp only at hcalls
        omega
  have h := hloop requested ⟨[], []⟩ none (fun _ h => h) rfl (.inl hne)
  exact ⟨h.1, h.2.trans (Nat.le_of_eq (Nat.zero_add _))⟩

/-- Port 5001 is taken, and the first port drawn is the one before it. -/
def crowdedOs : Os := fun call addr =>
  if addr.port = 0 then .ok (addr.setPort (if call = 0 then 5000 else 6000))
  else if addr.port = 5001 then .error ⟨.addrInUse, "Address already in use"⟩
  else .ok addr

/-- The listener on port 5000 is given up, and the second draw gives the pair. -/
theorem crowded_bind_leaves_pair :
    (bindServer crowdedOs [.v4 0x0a000001#32 0]).1 =
        some (.ok (⟨2, .v4 0x0a000001#32 6000⟩, ⟨3, .v4 0x0a000001#32 6001⟩)) ∧
      Leaves [.v4 0x0a000001#32 0] (bindServer crowdedOs [.v4 0x0a000001#32 0]).2
        (bindServer crowdedOs [.v4 0x0a000001#32 0]).1 := by
  refine ⟨rfl, (bind_leaves_pair_or_nothing ?_ (by simp)).1⟩
  intro call addr bound h
  unfold crowdedOs at h
  split at h
  · obtain rfl := Except.ok.inj h
    refine ⟨?_, fun hport => absurd ‹_› hport⟩
    cases addr <;> rfl
  · split at h
    · cases h
    · obtain rfl := Except.ok.inj h
      exact ⟨rfl, fun _ => rfl⟩

end RtpMux

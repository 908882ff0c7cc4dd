import RtpMux.Dials

/-!
# The requests that wait for a dial

A request is worth one: it is taken in once, and from then on it is queued or it has been
answered, but not both. A request that is neither any more was dropped because its caller had
gone. `Settling.flow` is the account of it, and every arm of the loop is an instance.

While the loop is inside the arm for a dial that succeeded, the waiters of that address are
still queued although the dial is over; at the `select!` every queued request is in flight.
-/

namespace RtpMux

open Connector

/-! ## Requests -/

/-- How often a response was sent. -/
def Loop.used (l : Loop) (r : ResponseId) : Nat := l.answers.countP fun e => e.1 = r

/-- How often a response is among some requests. -/
def requestsOf (r : ResponseId) (ws : List StreamRequest) : Nat := ws.countP fun w => w.response = r

/-- How often a response is queued, under an address or in the arm that answers. -/
def Loop.queued (l : Loop) (r : ResponseId) : Nat :=
  HashMap.total (requestsOf r) l.dialWaiters + requestsOf r l.arm.waiters

/-- The address whose dial is over while its waiters are still queued. -/
def Arm.unanswered : Arm → Option SocketAddr
  | .completing _ _ _ (.answer _) => none
  | .completing addr _ _ _ => some addr
  | _ => none

/-- Every request is answered, given up or queued, and at most one of the first and the last. -/
structure Settling (s : Connector) : Prop where
  distinct : s.loop.received.Nodup
  once : ∀ r, s.loop.used r + s.loop.queued r ≤ s.loop.received.count r
  settled : ∀ r ∈ s.loop.received, 0 < s.loop.used r ∨ r ∈ s.closed ∨ 0 < s.loop.queued r
  waiting : ∀ a ws, s.loop.dialWaiters.lookup a = some ws →
    (a ∈ s.loop.inFlightDials ∨ s.loop.arm.unanswered = some a) ∧
      ws.length ≤ maxDialWaitersPerAddr

/-- The connector starts without requests. -/
theorem settling_init (explorerCtx : Bool) : Settling (Connector.init explorerCtx) where
  distinct := by simp [Connector.init]
  once := by simp [Connector.init, Loop.used, Loop.queued, Arm.waiters, requestsOf]
  settled := by simp [Connector.init]
  waiting := by simp [Connector.init]

namespace Settling

variable {s s' : Connector} (h : Settling s)
include h

/-- **The account of requests.** A step may take in new requests, answer queued ones and let go of
those whose caller is gone. -/
theorem flow (new : List ResponseId) (hreceived : s'.loop.received = new ++ s.loop.received)
    (hnodup : new.Nodup) (hnew : ∀ r ∈ new, r ∉ s.loop.received)
    (hclosed : ∀ r ∈ s.closed, r ∈ s'.closed)
    (hsum : ∀ r, s'.loop.used r + s'.loop.queued r ≤
      s.loop.used r + s.loop.queued r + new.count r)
    (hused : ∀ r, s.loop.used r ≤ s'.loop.used r)
    (hlost : ∀ r, 0 < s.loop.queued r + new.count r →
      0 < s'.loop.used r ∨ r ∈ s'.closed ∨ 0 < s'.loop.queued r)
    (hwaiting : ∀ a ws, s'.loop.dialWaiters.lookup a = some ws →
      (a ∈ s'.loop.inFlightDials ∨ s'.loop.arm.unanswered = some a) ∧
        ws.length ≤ maxDialWaitersPerAddr) : Settling s' where
  distinct := by
    rw [hreceived]
    exact hnodup.append h.distinct fun r hr hr' => hnew r hr hr'
  once := by
    intro r
    rw [hreceived, List.count_append]
    have := hsum r
    have := h.once r
    omega
  settled := by
    intro r hr
    rw [hreceived, List.mem_append] at hr
    rcases hr with hr | hr
    · exact hlost r (Nat.lt_of_lt_of_le (List.count_pos_iff.mpr hr) (Nat.le_add_left _ _))
    · rcases h.settled r hr with hu | hc | hq
      · exact .inl (Nat.lt_of_lt_of_le hu (hused r))
      · exact .inr (.inl (hclosed r hc))
      · exact hlost r (Nat.lt_of_lt_of_le hq (Nat.le_add_right _ _))
  waiting := hwaiting

/-- Steps that leave the requests. -/
theorem of_eq (hreceived : s'.loop.received = s.loop.received)
    (hanswers : s'.loop.answers = s.loop.answers)
    (hwaiters : s'.loop.dialWaiters = s.loop.dialWaiters)
    (harm : s'.loop.arm.waiters = s.loop.arm.waiters)
    (hclosed : ∀ r ∈ s.closed, r ∈ s'.closed)
    (hinFlight : ∀ a, a ∈ s.loop.inFlightDials ∨ s.loop.arm.unanswered = some a →
      a ∈ s'.loop.inFlightDials ∨ s'.loop.arm.unanswered = some a) : Settling s' := by
  have hused : ∀ r, s'.loop.used r = s.loop.used r := fun r => by simp [Loop.used, hanswers]
  have hqueued : ∀ r, s'.loop.queued r = s.loop.queued r :=
    fun r => by simp [Loop.queued, hwaiters, harm]
  refine h.flow [] hreceived List.nodup_nil (by simp) hclosed ?_ ?_ ?_ ?_
  · intro r
    rw [hused, hqueued]
    exact Nat.le_add_right _ _
  · exact fun r => Nat.le_of_eq (hused r).symm
  · intro r hr
    rw [hqueued]
    exact .inr (.inr (by simpa using hr))
  · intro a ws ha
    rw [hwaiters] at ha
    obtain ⟨hfly, hlen⟩ := h.waiting a ws ha
    exact ⟨hinFlight a hfly, hlen⟩

/-- Steps outside the loop. -/
theorem of_loop (hloop : s'.loop = s.loop) (hclosed : ∀ r ∈ s.closed, r ∈ s'.closed) :
    Settling s' := by
  refine h.of_eq ?_ ?_ ?_ ?_ hclosed ?_ <;> simp [hloop]

end Settling

/-! ### How the numbers move -/

theorem requestsOf_append (r : ResponseId) (ws ws' : List StreamRequest) :
    requestsOf r (ws ++ ws') = requestsOf r ws + requestsOf r ws' :=
  List.countP_append

theorem requestsOf_singleton (r : ResponseId) (w : StreamRequest) :
    requestsOf r [w] = if w.response = r then 1 else 0 := by
  simp [requestsOf, List.countP_cons]

theorem requestsOf_cons (r : ResponseId) (w : StreamRequest) (ws : List StreamRequest) :
    requestsOf r (w :: ws) = requestsOf r ws + if w.response = r then 1 else 0 := by
  simp [requestsOf, List.countP_cons]

/-- Failing some requests answers each of them. -/
theorem used_failAll (l : Loop) (ws : List StreamRequest) (error : ConnectError)
    (r : ResponseId) : (failAll ws error l).used r = l.used r + requestsOf r ws := by
  simp only [Loop.used, failAll, requestsOf, List.countP_append, List.countP_reverse,
    List.countP_map]
  rw [Nat.add_comm]
  rfl

/-- Letting go of the requests whose caller is gone. -/
theorem requestsOf_filter (closed : List ResponseId) (r : ResponseId) (ws : List StreamRequest) :
    requestsOf r (ws.filter (·.response ∉ closed)) = if r ∈ closed then 0 else requestsOf r ws := by
  induction ws with
  | nil => simp [requestsOf]
  | cons w ws ih =>
    rw [requestsOf_cons]
    by_cases hw : w.response ∈ closed
    · rw [List.filter_cons_of_neg (by simpa using hw), ih]
      by_cases hr : w.response = r
      · simp [← hr, hw]
      · simp [hr]
    · rw [List.filter_cons_of_pos (by simpa using hw), requestsOf_cons, ih]
      by_cases hr : w.response = r
      · simp [← hr, hw]
      · simp [hr]

/-- Taking the waiters of an address out of the map. -/
theorem total_erase_waiters (m : HashMap SocketAddr (List StreamRequest)) (a : SocketAddr)
    (r : ResponseId) :
    HashMap.total (requestsOf r) (m.erase a) + requestsOf r ((m.lookup a).getD []) =
      HashMap.total (requestsOf r) m := by
  cases ha : m.lookup a with
  | none =>
    rw [HashMap.erase_of_lookup_none ha]
    simp [requestsOf]
  | some ws =>
    rw [← HashMap.total_erase ha]
    exact Nat.add_comm _ _

/-- Storing the waiters of an address. -/
theorem total_insert_waiters (m : HashMap SocketAddr (List StreamRequest)) (a : SocketAddr)
    (ws : List StreamRequest) (r : ResponseId) :
    HashMap.total (requestsOf r) (m.insert a ws) + requestsOf r ((m.lookup a).getD []) =
      HashMap.total (requestsOf r) m + requestsOf r ws := by
  rw [HashMap.total_insert_erase, ← total_erase_waiters m a r]
  omega

/-- All waiters together. -/
theorem requestsOf_entries (m : HashMap SocketAddr (List StreamRequest)) (r : ResponseId) :
    requestsOf r (m.entries.flatMap (·.2)) = HashMap.total (requestsOf r) m := by
  simp [requestsOf, HashMap.total, List.countP_flatMap]
  rfl

/-! ### Steps outside the loop -/

/-- Rebinding a stream leaves the loop alone. -/
theorem loop_rebindOne (s : Connector) (i : StreamId) (r : StreamHandle) (new : SessionId)
    (pc : RebindPc) :
    (s.rebindOne i r new pc).1.loop = s.loop ∧ (s.rebindOne i r new pc).1.closed = s.closed := by
  cases pc <;> simp only [Connector.rebindOne] <;>
    first | exact ⟨rfl, rfl⟩ | (split <;> exact ⟨rfl, rfl⟩)

/-- Seeking the newest session leaves the loop alone. -/
theorem loop_seekStep (s : Connector) (i : StreamId) (session newest cursor : SessionId)
    (hops : Nat) :
    (s.seekStep i session newest cursor hops).loop = s.loop ∧
      (s.seekStep i session newest cursor hops).closed = s.closed := by
  cases hops with
  | zero => exact ⟨rfl, rfl⟩
  | succ hops =>
    simp only [Connector.seekStep]
    split
    · exact ⟨rfl, rfl⟩
    · split <;> exact ⟨rfl, rfl⟩

/-- A step of `track` leaves the loop alone. -/
theorem loop_trackStep (s : Connector) (i : StreamId) (r : StreamHandle) (session : SessionId)
    (pc : TrackPc) :
    (s.trackStep i r session pc).loop = s.loop ∧
      (s.trackStep i r session pc).closed = s.closed := by
  cases pc with
  | current =>
    simp only [Connector.trackStep]
    split <;> exact ⟨rfl, rfl⟩
  | seek newest cursor hops => exact loop_seekStep s i session newest cursor hops
  | place live =>
    simp only [Connector.trackStep]
    split <;> exact ⟨rfl, rfl⟩
  | rebind live pc =>
    have hone := loop_rebindOne s i r live pc
    simp only [Connector.trackStep]
    split <;> (rename_i heq; rw [heq] at hone; exact hone)

/-- The events that happen outside the loop. -/
def ConnectorEvent.outside : ConnectorEvent → Bool
  | .open _ _ => true
  | .intoStream _ => true
  | .track _ => true
  | .dropStream _ => true
  | .writerEnds _ => true
  | .closeResponse _ => true
  | .probeSession _ => true
  | .visit _ => true
  | .leave _ => true
  | .openerDies _ => true
  | .supervisorEnds _ => true
  | .watcher _ => true
  | _ => false

/-- What happens outside the loop leaves its tables. -/
theorem loop_of_outside {s s' : Connector} {e : ConnectorEvent} (he : e.outside = true)
    (h : s.step e = some s') : s'.loop = s.loop ∧ ∀ r ∈ s.closed, r ∈ s'.closed := by
  -- outside the loop a step may close a response, which only adds to the closed ones
  cases e with
  | «open» addr lane =>
    obtain ⟨X, -, rfl⟩ := Option.map_eq_some_iff.mp h
    exact ⟨rfl, fun _ => id⟩
  | intoStream i =>
    simp only [Connector.step, Connector.intoStream] at h
    split at h
    · split at h
      · obtain rfl := Option.some.inj h
        exact ⟨rfl, fun _ => id⟩
      · cases h
    · cases h
  | track i =>
    simp only [Connector.step, Connector.track] at h
    split at h
    · rename_i r hi
      split at h
      · rename_i session pc hphase
        obtain rfl := Option.some.inj h
        obtain ⟨hloop, hclosed⟩ := loop_trackStep s i r session pc
        exact ⟨hloop, fun _ hr => hclosed ▸ hr⟩
      · cases h
    · cases h
  | dropStream i =>
    simp only [Connector.step, Connector.dropStream] at h
    split at h
    · split at h
      · obtain rfl := Option.some.inj h
        exact ⟨rfl, fun _ => id⟩
      · split at h
        · obtain rfl := Option.some.inj h
          exact ⟨rfl, fun _ => id⟩
        · split at h <;> obtain rfl := Option.some.inj h <;> exact ⟨rfl, fun _ => id⟩
      · cases h
    · cases h
  | writerEnds i =>
    simp only [Connector.step, Connector.writerEnds] at h
    split at h
    · split at h
      · cases h
      · obtain rfl := Option.some.inj h
        exact ⟨rfl, fun _ => id⟩
    · cases h
  | probeSession addr =>
    obtain rfl := Option.some.inj h
    exact ⟨rfl, fun _ => id⟩
  | visit visit =>
    obtain ⟨X, -, rfl⟩ := Option.map_eq_some_iff.mp h
    exact ⟨rfl, fun _ => id⟩
  | leave X =>
    simp only [Connector.step, Connector.leave] at h
    split at h
    · obtain rfl := Option.some.inj h
      exact ⟨rfl, fun _ => id⟩
    · cases h
  | closeResponse r =>
    obtain rfl := Option.some.inj h
    exact ⟨rfl, fun _ hr => List.mem_cons_of_mem _ hr⟩
  | openerDies X =>
    obtain rfl := Option.some.inj h
    exact ⟨rfl, fun _ => id⟩
  | supervisorEnds X =>
    simp only [Connector.step, Connector.supervisorEnds] at h
    split at h
    · split at h
      · obtain rfl := Option.some.inj h
        exact ⟨rfl, fun _ => id⟩
      · cases h
    · cases h
  | watcher X =>
    simp only [Connector.step, Connector.watcherStep] at h
    split at h
    · split at h
      · split at h
        · obtain rfl := Option.some.inj h
          exact ⟨rfl, fun _ => id⟩
        · split at h
          · cases h
          · obtain rfl := Option.some.inj h
            exact ⟨rfl, fun _ => id⟩
      · obtain rfl := Option.some.inj h
        exact ⟨rfl, fun _ => id⟩
      · cases h
    · cases h
  | _ => cases he

/-! ### Steps of the loop -/

namespace Settling

variable {s s' : Connector} (h : Settling s)
include h

/-- A queued request is answered, or let go because its caller is gone. -/
theorem respond {addr : SocketAddr} {session : SessionId} {old : Option SessionId}
    {request : StreamRequest} {waiters : List StreamRequest}
    (harm : s.loop.arm = .completing addr session old (.answer (request :: waiters))) :
    Settling ((s.respond session request).setArm
      (.completing addr session old (.answer waiters))) := by
  have hqueued : ∀ r, s.loop.queued r =
      HashMap.total (requestsOf r) s.loop.dialWaiters + requestsOf r waiters +
        if request.response = r then 1 else 0 := by
    intro r
    rw [Loop.queued, harm, Arm.waiters, requestsOf_cons, Nat.add_assoc]
  have hwaiting : ∀ a ws, s.loop.dialWaiters.lookup a = some ws →
      (a ∈ s.loop.inFlightDials ∨ (Arm.completing addr session old (.answer waiters)).unanswered =
        some a) ∧ ws.length ≤ maxDialWaitersPerAddr := by
    intro a ws ha
    obtain ⟨hfly, hlen⟩ := h.waiting a ws ha
    rw [harm] at hfly
    exact ⟨hfly, hlen⟩
  unfold Connector.respond
  split
  · rename_i hclosed
    refine h.flow [] rfl List.nodup_nil (by simp) (fun _ => id) ?_ (fun _ => Nat.le_refl _)
      ?_ hwaiting
    · intro r
      rw [hqueued]
      simp only [Loop.used, Loop.queued, setArm, setLoop, Arm.waiters, List.count_nil]
      omega
    · intro r hr
      rw [hqueued] at hr
      by_cases hreq : request.response = r
      · exact .inr (.inl (hreq ▸ hclosed))
      · simp only [if_neg hreq, List.count_nil] at hr
        exact .inr (.inr hr)
  · refine h.flow [] rfl List.nodup_nil (by simp) (fun _ => id) ?_ ?_ ?_ hwaiting
    · intro r
      rw [hqueued]
      simp only [Loop.used, Loop.queued, setArm, setLoop, answer, openStream, takeGuard,
        Arm.waiters, List.count_nil, List.countP_cons, decide_eq_true_eq]
      omega
    · intro r
      simp only [Loop.used, setArm, setLoop, answer, openStream, takeGuard, List.countP_cons]
      exact Nat.le_add_right _ _
    · intro r hr
      rw [hqueued] at hr
      by_cases hreq : request.response = r
      · left
        simp [Loop.used, setArm, setLoop, answer, openStream, takeGuard, hreq]
      · simp only [if_neg hreq, List.count_nil] at hr
        exact .inr (.inr hr)

/-- The waiters of an address move from the map into the arm that answers them. -/
theorem retire {addr : SocketAddr} {session : SessionId} {old : Option SessionId} {stage : Stage}
    (harm : s.loop.arm = .completing addr session old stage)
    (hstage : stage = .rebind ∨ stage = .move []) : Settling (s.retire addr session old) := by
  have hnone : s.loop.arm.waiters = [] := by
    rw [harm]
    rcases hstage with rfl | rfl <;> rfl
  have hqueued : ∀ r, (s.retire addr session old).loop.queued r = s.loop.queued r := by
    intro r
    rw [Loop.queued, Loop.queued, hnone]
    simp only [Connector.retire, Arm.waiters]
    rw [total_erase_waiters]
    simp [requestsOf]
  refine h.flow [] rfl List.nodup_nil (by simp) (fun _ => id) ?_
    (fun _ => Nat.le_refl _) ?_ ?_
  · intro r
    rw [hqueued]
    exact Nat.le_add_right _ _
  · intro r hr
    rw [hqueued]
    exact .inr (.inr (by simpa using hr))
  · intro a ws ha
    simp only [Connector.retire, HashMap.lookup_erase_eq] at ha
    split at ha
    · cases ha
    · rename_i hne
      obtain ⟨hfly, hlen⟩ := h.waiting a ws ha
      refine ⟨.inl (hfly.resolve_right ?_), hlen⟩
      rw [harm]
      rcases hstage with rfl | rfl <;> exact fun heq => hne (Option.some.inj heq).symm

/-- The waiters of a failed dial are answered. -/
theorem fail {dial : Dial} {error : ConnectError} {old : Option SessionId}
    (harm : s.loop.arm = .select) :
    Settling (s.setLoop fun l =>
      { failAll ((l.dialWaiters.lookup dial.addr).getD []) error (removeDial dial l) with
        dialWaiters := l.dialWaiters.erase dial.addr
        arm := .failing dial.addr old }) := by
  have hused : ∀ r, Loop.used { failAll ((s.loop.dialWaiters.lookup dial.addr).getD []) error
      (removeDial dial s.loop) with
        dialWaiters := s.loop.dialWaiters.erase dial.addr
        arm := .failing dial.addr old } r =
      s.loop.used r + requestsOf r ((s.loop.dialWaiters.lookup dial.addr).getD []) :=
    fun r => used_failAll (removeDial dial s.loop) _ error r
  have hqueued : ∀ r, s.loop.queued r =
      HashMap.total (requestsOf r) (s.loop.dialWaiters.erase dial.addr) +
        requestsOf r ((s.loop.dialWaiters.lookup dial.addr).getD []) := by
    intro r
    rw [total_erase_waiters, Loop.queued, harm]
    rfl
  refine h.flow [] rfl List.nodup_nil (by simp) (fun _ => id) ?_ ?_ ?_ ?_
  · intro r
    rw [hqueued]
    simp only [setLoop]
    rw [hused]
    simp only [Loop.queued, Arm.waiters, requestsOf, List.countP_nil, List.count_nil]
    omega
  · intro r
    simp only [setLoop]
    rw [hused]
    exact Nat.le_add_right _ _
  · intro r hr
    rw [hqueued] at hr
    simp only [setLoop]
    rw [hused]
    simp only [Loop.queued, Arm.waiters, requestsOf, List.countP_nil, List.count_nil] at hr ⊢
    omega
  · intro a ws ha
    simp only [setLoop, HashMap.lookup_erase_eq] at ha
    split at ha
    · cases ha
    · rename_i hne
      obtain ⟨hfly, hlen⟩ := h.waiting a ws ha
      rw [harm] at hfly
      refine ⟨.inl ?_, hlen⟩
      simp only [setLoop, failAll, removeDial, Finset.mem_erase]
      exact ⟨hne, hfly.resolve_right (by simp [Arm.unanswered])⟩

/-- `Reset` answers everybody. -/
theorem reset (harm : s.loop.arm = .select) (hreset : s.reset = some s') : Settling s' := by
  simp only [Connector.reset, harm, if_true] at hreset
  obtain rfl := Option.some.inj hreset
  have hused : ∀ r, (failAll (s.loop.dialWaiters.entries.flatMap (·.2)) .connectorReset
      s.loop).used r = s.loop.used r + HashMap.total (requestsOf r) s.loop.dialWaiters := by
    intro r
    rw [used_failAll, requestsOf_entries]
  have hqueued : ∀ r, s.loop.queued r = HashMap.total (requestsOf r) s.loop.dialWaiters := by
    intro r
    rw [Loop.queued, harm]
    rfl
  refine h.flow [] rfl List.nodup_nil (by simp) (fun _ => id) ?_ ?_ ?_ (by simp)
  · intro r
    rw [hqueued, ← hused]
    simp [Loop.used, Loop.queued, failAll, harm, Arm.waiters, requestsOf]
  · intro r
    exact Nat.le_trans (Nat.le_add_right _ _) (Nat.le_of_eq (hused r).symm)
  · intro r hr
    rw [hqueued] at hr
    refine .inl (Nat.lt_of_lt_of_le hr ?_)
    exact Nat.le_trans (Nat.le_add_left _ _) (Nat.le_of_eq (hused r).symm)

/-- What `live_dial_waiters` leaves: the requests of callers that are still there. -/
theorem liveWaiters {addr : SocketAddr} {m : HashMap SocketAddr (List StreamRequest)}
    (hm : m = s.loop.dialWaiters.modify addr fun ws => ws.filter (·.response ∉ s.closed)) :
    (∀ r, HashMap.total (requestsOf r) m ≤ HashMap.total (requestsOf r) s.loop.dialWaiters) ∧
      (∀ r, r ∉ s.closed →
        HashMap.total (requestsOf r) m = HashMap.total (requestsOf r) s.loop.dialWaiters) ∧
      ∀ a ws, m.lookup a = some ws →
        (a ∈ s.loop.inFlightDials ∨ s.loop.arm.unanswered = some a) ∧
          ws.length ≤ maxDialWaitersPerAddr := by
  subst hm
  cases hws : s.loop.dialWaiters.lookup addr with
  | none =>
    have heq : (s.loop.dialWaiters.modify addr fun ws => ws.filter (·.response ∉ s.closed)) =
        s.loop.dialWaiters := by
      simp only [HashMap.modify, hws]
    rw [heq]
    exact ⟨fun _ => Nat.le_refl _, fun _ _ => rfl, h.waiting⟩
  | some ws =>
    have heq : (s.loop.dialWaiters.modify addr fun ws => ws.filter (·.response ∉ s.closed)) =
        s.loop.dialWaiters.insert addr (ws.filter (·.response ∉ s.closed)) := by
      simp only [HashMap.modify, hws]
    have htotal : ∀ r, requestsOf r ws + HashMap.total (requestsOf r)
        (s.loop.dialWaiters.insert addr (ws.filter (·.response ∉ s.closed))) =
        requestsOf r (ws.filter (·.response ∉ s.closed)) +
          HashMap.total (requestsOf r) s.loop.dialWaiters :=
      fun r => HashMap.total_insert (f := requestsOf r) _ hws
    rw [heq]
    refine ⟨fun r => ?_, fun r hr => ?_, fun a ws' ha => ?_⟩
    · have := htotal r
      rw [requestsOf_filter] at this
      split at this <;> omega
    · have := htotal r
      rw [requestsOf_filter, if_neg hr] at this
      omega
    · rw [HashMap.lookup_insert_eq] at ha
      split at ha
      · rename_i haddr
        obtain rfl := Option.some.inj ha
        obtain ⟨hfly, hlen⟩ := h.waiting addr ws hws
        exact ⟨haddr ▸ hfly, Nat.le_trans (List.length_filter_le _ _) hlen⟩
      · exact h.waiting a ws' ha

/-- A new request is answered at once. -/
theorem refuse {addr : SocketAddr} {response : ResponseId}
    {result : Except ConnectError StreamId} (hnew : response ∉ s.loop.received)
    (hreceived : s'.loop.received = response :: s.loop.received)
    (hanswers : s'.loop.answers = (response, result) :: s.loop.answers)
    (hwaiters : s'.loop.dialWaiters =
      s.loop.dialWaiters.modify addr fun ws => ws.filter (·.response ∉ s.closed))
    (harm : s'.loop.arm = s.loop.arm) (hinFlight : s'.loop.inFlightDials = s.loop.inFlightDials)
    (hclosed : s'.closed = s.closed) : Settling s' := by
  obtain ⟨hle, heq, hwaiting⟩ := h.liveWaiters hwaiters
  have hused : ∀ r, s'.loop.used r = s.loop.used r + [response].count r := by
    intro r
    simp [Loop.used, hanswers, List.countP_cons, List.count_cons]
  refine h.flow [response] hreceived (List.nodup_singleton _) (by simpa using hnew)
    (fun r hr => hclosed ▸ hr) ?_ ?_ ?_ ?_
  · intro r
    rw [hused]
    simp only [Loop.queued, harm]
    have := hle r
    omega
  · intro r
    rw [hused]
    exact Nat.le_add_right _ _
  · intro r hr
    rw [hused]
    by_cases hc : r ∈ s.closed
    · exact .inr (.inl (hclosed ▸ hc))
    · simp only [Loop.queued, harm, heq r hc] at hr ⊢
      omega
  · rw [harm, hinFlight]
    exact hwaiting

/-- A new request is queued. -/
theorem push {addr : SocketAddr} (request : StreamRequest)
    {m : HashMap SocketAddr (List StreamRequest)} (hnew : request.response ∉ s.loop.received)
    (hm : m = s.loop.dialWaiters.modify addr fun ws => ws.filter (·.response ∉ s.closed))
    (hroom : ((m.lookup addr).getD []).length < maxDialWaitersPerAddr)
    (hreceived : s'.loop.received = request.response :: s.loop.received)
    (hanswers : s'.loop.answers = s.loop.answers)
    (hwaiters : s'.loop.dialWaiters = m.insert addr ((m.lookup addr).getD [] ++ [request]))
    (harm : s'.loop.arm = s.loop.arm)
    (hinFlight : ∀ a, a ∈ s.loop.inFlightDials ∨ a = addr → a ∈ s'.loop.inFlightDials)
    (hclosed : s'.closed = s.closed) : Settling s' := by
  obtain ⟨hle, heq, hwaiting⟩ := h.liveWaiters hm
  have hused : ∀ r, s'.loop.used r = s.loop.used r := fun r => by simp [Loop.used, hanswers]
  have htotal : ∀ r, HashMap.total (requestsOf r) s'.loop.dialWaiters =
      HashMap.total (requestsOf r) m + [request.response].count r := by
    intro r
    have := total_insert_waiters m addr ((m.lookup addr).getD [] ++ [request]) r
    rw [requestsOf_append, requestsOf_singleton] at this
    rw [hwaiters]
    simp only [List.count_cons, List.count_nil, beq_iff_eq]
    omega
  refine h.flow [request.response] hreceived (List.nodup_singleton _)
    (by simpa using hnew) (fun r hr => hclosed ▸ hr) ?_ (fun r => Nat.le_of_eq (hused r).symm)
    ?_ ?_
  · intro r
    rw [hused]
    simp only [Loop.queued, harm, htotal]
    have := hle r
    omega
  · intro r hr
    by_cases hc : r ∈ s.closed
    · exact .inr (.inl (hclosed ▸ hc))
    · simp only [Loop.queued, harm, htotal, heq r hc] at hr ⊢
      omega
  · intro a ws ha
    rw [hwaiters, HashMap.lookup_insert_eq] at ha
    rw [harm]
    split at ha
    · rename_i haddr
      obtain rfl := Option.some.inj ha
      refine ⟨.inl (hinFlight a (.inr haddr)), ?_⟩
      rw [List.length_append, List.length_singleton]
      exact hroom
    · obtain ⟨hfly, hlen⟩ := hwaiting a ws ha
      exact ⟨hfly.imp_left fun hfly => hinFlight a (.inl hfly), hlen⟩

/-- The command `Connect`. -/
theorem connect {addr : SocketAddr} {lane : LaneClass} {key : Option ObfuscationKey}
    {response : ResponseId} (hstep : s.connect addr lane key response = some s') :
    Settling s' := by
  unfold Connector.connect at hstep
  split at hstep
  · rename_i hguard
    obtain ⟨harm, hnew⟩ := hguard
    simp only at hstep
    split at hstep
    · rename_i session hlive
      obtain rfl := Option.some.inj hstep
      unfold Connector.respond
      split
      · rename_i hclosed
        refine h.flow [response] rfl (List.nodup_singleton _) (by simpa using hnew)
          (fun _ => id) (fun r => Nat.le_add_right _ _) (fun _ => Nat.le_refl _) ?_ h.waiting
        intro r hr
        by_cases hr' : r = response
        · exact .inr (.inl (hr' ▸ hclosed))
        · rw [List.count_cons_of_ne (Ne.symm hr'), List.count_nil] at hr
          exact .inr (.inr hr)
      · refine h.flow [response] rfl (List.nodup_singleton _) (by simpa using hnew)
          (fun _ => id) ?_ ?_ ?_ h.waiting
        · intro r
          simp only [Loop.used, Loop.queued, answer, setLoop, openStream, takeGuard,
            List.countP_cons, List.count_cons, List.count_nil, beq_iff_eq, decide_eq_true_eq]
          omega
        · intro r
          simp only [Loop.used, answer, setLoop, openStream, takeGuard, List.countP_cons]
          exact Nat.le_add_right _ _
        · intro r hr
          by_cases hr' : r = response
          · exact .inl (by simp [Loop.used, answer, setLoop, openStream, takeGuard, hr'])
          · rw [List.count_cons_of_ne (Ne.symm hr'), List.count_nil] at hr
            exact .inr (.inr hr)
    · have hcount : ((s.setLoop fun l => { l with received := response :: l.received
          }).liveDialWaiters addr).2 = (((s.loop.dialWaiters.modify addr fun ws =>
            ws.filter (·.response ∉ s.closed)).lookup addr).getD []).length := by
        rw [HashMap.lookup_modify, if_pos rfl]
        simp only [liveDialWaiters, setLoop]
        cases s.loop.dialWaiters.lookup addr <;> rfl
      split at hstep
      · obtain rfl := Option.some.inj hstep
        exact h.refuse hnew rfl rfl rfl rfl rfl rfl
      · rename_i hroom
        rw [hcount] at hroom
        split at hstep
        · rename_i hfly
          obtain rfl := Option.some.inj hstep
          refine h.push ⟨lane, response⟩ hnew rfl (Nat.lt_of_not_le hroom) rfl rfl rfl
            rfl ?_ rfl
          rintro a (ha | rfl)
          · exact ha
          · exact hfly
        · split at hstep <;> obtain rfl := Option.some.inj hstep
          · exact h.refuse hnew rfl rfl rfl rfl rfl rfl
          · refine h.push ⟨lane, response⟩ hnew rfl (Nat.lt_of_not_le hroom) rfl rfl
              rfl rfl ?_ rfl
            rintro a (ha | rfl)
            · exact Finset.mem_insert_of_mem ha
            · exact Finset.mem_insert_self _ _
  · cases hstep

/-- The arm for a dial that succeeded. -/
theorem completeStep {addr : SocketAddr} {session : SessionId} {old : Option SessionId}
    {stage : Stage} (harm : s.loop.arm = .completing addr session old stage)
    (hstep : s.completeStep addr session old stage = some s') : Settling s' := by
  -- moving on in the work list of `rebind_streams` leaves the requests
  have hmove : ∀ {s₁ : Connector} {stage' : Stage}, s₁.loop = s.loop → s₁.closed = s.closed →
      (Arm.completing addr session old stage').waiters = s.loop.arm.waiters →
      (Arm.completing addr session old stage').unanswered = s.loop.arm.unanswered →
      Settling (s₁.setArm (.completing addr session old stage')) := by
    intro s₁ stage' hloop hclosed hwaiters hunanswered
    refine h.of_eq ?_ ?_ ?_ hwaiters (fun r hr => hclosed ▸ hr) ?_
    · simp only [setArm, setLoop, hloop]
    · simp only [setArm, setLoop, hloop]
    · simp only [setArm, setLoop, hloop]
    · intro a ha
      simp only [setArm, setLoop, hloop, hunanswered]
      exact ha
  cases stage with
  | rebind =>
    simp only [Connector.completeStep] at hstep
    split at hstep
    · obtain rfl := Option.some.inj hstep
      exact h.retire harm (.inl rfl)
    · split at hstep <;> obtain rfl := Option.some.inj hstep
      · exact hmove rfl rfl (by rw [harm]; rfl) (by rw [harm]; rfl)
      · exact h.retire harm (.inl rfl)
  | move todo =>
    cases todo with
    | nil =>
      obtain rfl := Option.some.inj hstep
      exact h.retire harm (.inr rfl)
    | cons i todo =>
      simp only [Connector.completeStep] at hstep
      split at hstep <;> obtain rfl := Option.some.inj hstep <;>
        exact hmove rfl rfl (by rw [harm]; rfl) (by rw [harm]; rfl)
  | one i pc todo =>
    simp only [Connector.completeStep] at hstep
    split at hstep
    · rename_i r hi
      obtain ⟨hloop, hclosed⟩ := loop_rebindOne s i r session pc
      split at hstep <;> obtain rfl := Option.some.inj hstep
      · rename_i s₁ pc' heq
        rw [heq] at hloop hclosed
        exact hmove hloop hclosed (by rw [harm]; rfl) (by rw [harm]; rfl)
      · rename_i s₁ heq
        rw [heq] at hloop hclosed
        have hrelease : (s₁.releaseStream i).loop = s₁.loop ∧
            (s₁.releaseStream i).closed = s₁.closed := by
          unfold Connector.releaseStream
          split
          · split <;> exact ⟨rfl, rfl⟩
          · exact ⟨rfl, rfl⟩
        exact hmove (hrelease.1.trans hloop) (hrelease.2.trans hclosed) (by rw [harm]; rfl)
          (by rw [harm]; rfl)
    · cases hstep
  | answer waiters =>
    cases waiters with
    | nil =>
      obtain rfl := Option.some.inj hstep
      refine h.of_eq rfl rfl rfl (by rw [harm]; rfl) (fun _ => id) ?_
      rintro a (ha | ha)
      · exact .inl ha
      · rw [harm] at ha
        cases ha
    | cons request waiters =>
      obtain rfl := Option.some.inj hstep
      exact h.respond harm

/-- A step keeps the invariant. -/
theorem step {e : ConnectorEvent} (hdialing : Dialing s) (hstep : s.step e = some s') :
    Settling s' := by
  by_cases he : e.outside = true
  · obtain ⟨hloop, hclosed⟩ := loop_of_outside he hstep
    exact h.of_loop hloop hclosed
  cases e with
  | reap X =>
    simp only [Connector.step, Connector.reap] at hstep
    split at hstep
    · split at hstep
      · obtain rfl := Option.some.inj hstep
        exact h.of_eq rfl rfl rfl rfl (fun _ => id) fun a ha => ha
      · cases hstep
    · cases hstep
  | dialDone dial result =>
    simp only [Connector.step, Connector.dialDone] at hstep
    split at hstep
    · rename_i hguard
      obtain ⟨harm, hdial⟩ := hguard
      split at hstep <;> obtain rfl := Option.some.inj hstep
      · obtain ⟨group, hgroup⟩ := Option.ne_none_iff_exists'.mp (hdialing.group_of_dial hdial)
        simp only [installSession, hgroup]
        refine h.of_eq rfl rfl rfl (by rw [harm]; rfl) (fun _ => id) ?_
        -- the waiters of the dial are the ones the arm will answer
        rintro a (ha | ha)
        · by_cases haddr : a = dial.addr
          · exact .inr (congrArg some haddr.symm)
          · exact .inl (Finset.mem_erase.mpr ⟨haddr, ha⟩)
        · rw [harm] at ha
          cases ha
      · exact h.fail harm
    · cases hstep
  | advance =>
    simp only [Connector.step, Connector.advance] at hstep
    split at hstep
    · rename_i addr session old stage harm
      exact h.completeStep harm hstep
    · rename_i addr old harm
      obtain rfl := Option.some.inj hstep
      refine h.of_eq rfl rfl rfl (by rw [harm]; rfl) (fun _ => id) ?_
      rintro a (ha | ha)
      · exact .inl ha
      · rw [harm] at ha
        cases ha
    · cases hstep
  | connect addr lane key response => exact h.connect hstep
  | redial addr trigger wantsMigration =>
    simp only [Connector.step, Connector.redial] at hstep
    split at hstep
    · split at hstep <;> obtain rfl := Option.some.inj hstep
      · exact h
      · refine h.of_eq rfl rfl rfl rfl (fun _ => id) ?_
        rintro a (ha | ha)
        · exact .inl (Finset.mem_insert_of_mem ha)
        · exact .inr ha
    · cases hstep
  | explorerReport addr =>
    simp only [Connector.step] at hstep
    split at hstep
    · obtain rfl := Option.some.inj hstep
      exact h
    · cases hstep
  | reset =>
    have harm : s.loop.arm = .select := by
      by_contra harm
      simp [Connector.step, Connector.reset, harm] at hstep
    exact h.reset harm hstep
  | _ => exact absurd rfl he

end Settling

/-! ## The result -/

/-- What `run_connector` owes to the callers of `connect`. -/
structure RequestsSettled (s : Connector) : Prop where
  /-- each address has at most one pending dial -/
  onePending : (s.loop.pendingDials.map (·.addr)).Nodup
  inFlight : ∀ a, a ∈ s.loop.inFlightDials ↔ ∃ d ∈ s.loop.pendingDials, d.addr = a
  redials : ∀ a r, s.loop.redials.lookup a = some r → a ∈ s.loop.inFlightDials
  dialCap : s.loop.pendingDials.length ≤ maxConcurrentDualDials
  waiterCap : ∀ a ws, s.loop.dialWaiters.lookup a = some ws → ws.length ≤ maxDialWaitersPerAddr
  /-- between two events, every address with queued waiters is in flight -/
  waiters : s.loop.arm = .select →
    ∀ a ws, s.loop.dialWaiters.lookup a = some ws → a ∈ s.loop.inFlightDials
  usedOnce : ∀ r, s.loop.used r ≤ 1
  /-- between two events, a response was sent, or its receiver is gone, or it is queued under an
  address in flight -/
  settled : s.loop.arm = .select → ∀ r ∈ s.loop.received,
    s.loop.used r = 1 ∨ r ∈ s.closed ∨
      ∃ a ws, s.loop.dialWaiters.lookup a = some ws ∧ (∃ w ∈ ws, w.response = r) ∧
        a ∈ s.loop.inFlightDials

/-- The invariant holds in every run. -/
theorem settling_of_reaches {C : Connector → ConnectorEvent → Prop} {explorerCtx : Bool}
    {s : Connector} (h : (connector explorerCtx).ReachesWhere C s) : Dialing s ∧ Settling s :=
  h.invariant (I := fun s => Dialing s ∧ Settling s)
    ⟨dialing_init explorerCtx, settling_init explorerCtx⟩
    fun _ _ _ hs _ hstep => ⟨hs.1.step (.of_step hstep), hs.2.step hs.1 hstep⟩

/-- A response is used at most once. -/
theorem Settling.used_le_one {s : Connector} (h : Settling s) (r : ResponseId) :
    s.loop.used r ≤ 1 := by
  have honce := h.once r
  have hcount := List.nodup_iff_count_le_one.mp h.distinct r
  omega

/-- At the `select!`, what is queued is queued under an address in flight. -/
theorem Settling.queued_inFlight {s : Connector} (h : Settling s) (harm : s.loop.arm = .select)
    {r : ResponseId} (hr : 0 < s.loop.queued r) :
    ∃ a ws, s.loop.dialWaiters.lookup a = some ws ∧ (∃ w ∈ ws, w.response = r) ∧
      a ∈ s.loop.inFlightDials := by
  have hnone : requestsOf r s.loop.arm.waiters = 0 := by rw [harm]; rfl
  rw [Loop.queued, hnone, Nat.add_zero] at hr
  obtain ⟨a, ws, ha, hpos⟩ := HashMap.exists_of_total_pos hr
  obtain ⟨w, hw, hresponse⟩ := List.countP_pos_iff.mp hpos
  refine ⟨a, ws, ha, ⟨w, hw, of_decide_eq_true hresponse⟩, ?_⟩
  have hfly := (h.waiting a ws ha).1
  rw [harm] at hfly
  exact hfly.resolve_right (by simp [Arm.unanswered])

/-- **Every connect request is settled exactly once.** -/
theorem connect_requests_settled {explorerCtx : Bool} {s : Connector}
    (h : (connector explorerCtx).Reaches s) : RequestsSettled s := by
  obtain ⟨hdialing, hsettling⟩ := settling_of_reaches h
  refine ⟨hdialing.nodup, hdialing.inFlight, hdialing.redials, hdialing.room,
    fun a ws ha => (hsettling.waiting a ws ha).2, ?_, hsettling.used_le_one, ?_⟩
  · intro harm a ws ha
    have hfly := (hsettling.waiting a ws ha).1
    rw [harm] at hfly
    exact hfly.resolve_right (by simp [Arm.unanswered])
  · intro harm r hr
    rcases hsettling.settled r hr with hused | hclosed | hqueued
    · exact .inl (Nat.le_antisymm (hsettling.used_le_one r) hused)
    · exact .inr (.inl hclosed)
    · exact .inr (.inr (hsettling.queued_inFlight harm hqueued))

/-- Three callers wait for one dial; one of them gives up, another address fails, and the dial is
still out. -/
def threeCallersRun : List ConnectorEvent :=
  [.connect (.v4 1 1) .interactive none 0, .connect (.v4 1 1) .bulk none 1,
    .connect (.v4 2 1) .interactive none 2, .closeResponse 1,
    .dialDone ⟨.v4 2 1, ⟨1⟩, none⟩ (.error .tooManyConcurrentDials), .advance]

/-- Of three callers one is served, one has gone, one is queued. -/
theorem connect_requests_settled_threeCallers :
    ∃ s, (connector false).Reaches s ∧ s.loop.arm = .select ∧ s.loop.received = [2, 1, 0] ∧
      s.loop.used 2 = 1 ∧ 1 ∈ s.closed ∧ s.loop.queued 0 = 1 ∧ RequestsSettled s := by
  have hrun : ∃ s, (connector false).Reaches s ∧ s.loop.arm = .select ∧
      s.loop.received = [2, 1, 0] ∧ s.loop.used 2 = 1 ∧ 1 ∈ s.closed ∧ s.loop.queued 0 = 1 :=
    ⟨_, ⟨threeCallersRun, Machine.run_of_exec rfl⟩, rfl, rfl, by decide, by decide, by decide⟩
  obtain ⟨s, hreach, harm, hreceived, hused, hclosed, hqueued⟩ := hrun
  exact ⟨s, hreach, harm, hreceived, hused, hclosed, hqueued, connect_requests_settled hreach⟩

end RtpMux

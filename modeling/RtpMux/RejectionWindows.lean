import RtpMux.LaneOutcome

/-!
# The rejection log (`lane_rejection.rs`)

`LaneRejectionLog::record` is called at every rejection, from any task; the serve loop calls
`flush` on every tick of its ticker, and once more when it has reaped every task. The log keeps
one summary under a mutex: how many lanes were rejected, how many of each class, and the first and
the last context. `flush` reports the summary and leaves an empty one, so the log is a sequence of
windows.

`LoggedServer` is the lane server with its outcomes (`LaneOutcomes`) together with the log, the
reports so far, and the counters `record` increments. Ticks come at any time. What a window should
report is said on the list of contexts recorded in it (`Summarizes`), which the program never has.
-/

namespace RtpMux

/-- `u64::MAX`. -/
def u64Max : Nat := 2 ^ 64 - 1

/-- `u64::saturating_add`. -/
def saturatingAdd (a b : Nat) : Nat := min (a + b) u64Max

/-- `LaneRejectionClass::metric_name`. -/
def LaneRejectionClass.metricName : LaneRejectionClass → String
  | capacity => "stream.rtp_mux.capacity_rejected"
  | helloTimeout => "stream.rtp_mux.hello_timeout"
  | helloParse => "stream.rtp_mux.hello_parse_error"
  | classMismatch => "stream.rtp_mux.class_mismatch"
  | admission => "stream.rtp_mux.admission_rejected"
  | groupFull => "stream.rtp_mux.group_full"
  | pairingTimeout => "stream.rtp_mux.pairing_timeout"
  | birthHeartbeat => "stream.rtp_mux.birth_heartbeat_error"
  | reservationLost => "stream.rtp_mux.reservation_lost"

/-- No two classes count into one metric. -/
theorem LaneRejectionClass.metricName_injective : Function.Injective metricName := by
  have hall : ∀ a ∈ [capacity, helloTimeout, helloParse, classMismatch, admission, groupFull,
      pairingTimeout, birthHeartbeat, reservationLost], ∀ b, b.metricName = a.metricName →
        b = a := by
    intro a ha b
    cases b <;> revert a <;> decide +kernel
  intro a b h
  exact hall b (by cases b <;> simp) a h

/-- `LaneRejectionSummary`. -/
structure LaneRejectionSummary where
  total : Nat
  byClass : HashMap LaneRejectionClass Nat
  first : Option RejectedLaneContext
  last : Option RejectedLaneContext

/-- The fields of the warning that `flush` writes. -/
structure RejectionReport where
  rejected : Nat
  rejectionClasses : HashMap LaneRejectionClass Nat
  first : RejectedLaneContext
  last : RejectedLaneContext

namespace LaneRejectionSummary

/-- `LaneRejectionSummary::default`. -/
def default : LaneRejectionSummary := ⟨0, ∅, none, none⟩

/-- `LaneRejectionLog::record`, without the metric. -/
def record (summary : LaneRejectionSummary) (context : RejectedLaneContext) :
    LaneRejectionSummary where
  total := saturatingAdd summary.total 1
  byClass := summary.byClass.insert context.laneClass
    (saturatingAdd ((summary.byClass.lookup context.laneClass).getD 0) 1)
  first := some (summary.first.getD context)
  last := some context

/-- `LaneRejectionLog::flush`: the report, if there is one, and the summary it leaves. The outer
`none` is the panic of `unwrap` on a missing endpoint. -/
def flush (summary : LaneRejectionSummary) :
    Option (Option RejectionReport × LaneRejectionSummary) :=
  if summary.total = 0 then some (none, summary)
  else
    match summary.first, summary.last with
    | some first, some last =>
      some (some ⟨summary.total, summary.byClass, first, last⟩, default)
    | _, _ => none

end LaneRejectionSummary

/-! ## What a window should report -/

/-- How many of the contexts are of a class. -/
def classCount (window : List RejectedLaneContext) (c : LaneRejectionClass) : Nat :=
  window.countP fun context => context.laneClass = c

/-- The number kept for a class: none at all before its first rejection. -/
def keptCount (n : Nat) : Option Nat := if n = 0 then none else some (min n u64Max)

/-- `summary` is what the log keeps of the contexts of `window`. -/
structure Summarizes (window : List RejectedLaneContext) (summary : LaneRejectionSummary) :
    Prop where
  total : summary.total = min window.length u64Max
  byClass : ∀ c, summary.byClass.lookup c = keptCount (classCount window c)
  first : summary.first = window.head?
  last : summary.last = window.getLast?

/-- `report` is what a flush reports of the contexts of `window`. -/
structure Reports (window : List RejectedLaneContext) (report : RejectionReport) : Prop where
  rejected : report.rejected = min window.length u64Max
  classes : ∀ c, report.rejectionClasses.lookup c = keptCount (classCount window c)
  first : window.head? = some report.first
  last : window.getLast? = some report.last

/-- An empty summary summarizes an empty window. -/
theorem summarizes_default : Summarizes [] .default :=
  ⟨rfl, fun _ => rfl, rfl, rfl⟩

/-- A further context counts for its class. -/
theorem classCount_append (window : List RejectedLaneContext) (context : RejectedLaneContext)
    (c : LaneRejectionClass) :
    classCount (window ++ [context]) c =
      classCount window c + if context.laneClass = c then 1 else 0 := by
  simp only [classCount, List.countP_append, List.countP_singleton, decide_eq_true_eq]

/-- The saturating counter follows the kept count. -/
theorem saturatingAdd_keptCount (n : Nat) :
    some (saturatingAdd ((keptCount n).getD 0) 1) = keptCount (n + 1) := by
  unfold keptCount saturatingAdd
  split <;> simp only [Option.getD_none, Option.getD_some, if_false, Nat.succ_ne_zero] <;>
    congr 1 <;> omega

/-- One more rejection in the window. -/
theorem Summarizes.record {window : List RejectedLaneContext} {summary : LaneRejectionSummary}
    (h : Summarizes window summary) (context : RejectedLaneContext) :
    Summarizes (window ++ [context]) (summary.record context) := by
  refine ⟨?_, ?_, ?_, ?_⟩
  · simp only [LaneRejectionSummary.record, saturatingAdd, h.total, List.length_append,
      List.length_singleton]
    omega
  · intro c
    simp only [LaneRejectionSummary.record, HashMap.lookup_insert_eq, h.byClass,
      classCount_append]
    by_cases hc : c = context.laneClass
    · subst hc
      rw [if_pos rfl, if_pos rfl, saturatingAdd_keptCount]
    · rw [if_neg hc, if_neg (Ne.symm hc), Nat.add_zero]
  · cases window <;> simp [LaneRejectionSummary.record, h.first]
  · simp [LaneRejectionSummary.record]

/-- A flush never panics: it does nothing on an empty window, and otherwise reports the window
and starts an empty one. -/
theorem Summarizes.flush {window : List RejectedLaneContext} {summary : LaneRejectionSummary}
    (h : Summarizes window summary) :
    (window = [] ∧ summary.flush = some (none, summary)) ∨
      ∃ report, Reports window report ∧ summary.flush = some (some report, .default) := by
  have htotal := h.total
  unfold LaneRejectionSummary.flush
  cases window with
  | nil => exact .inl ⟨rfl, if_pos (by simpa using htotal)⟩
  | cons context rest =>
    have hne : summary.total ≠ 0 := by
      simp only [htotal, List.length_cons, u64Max]
      omega
    have hlast : summary.last = some ((context :: rest).getLast (by simp)) := by
      rw [h.last, List.getLast?_eq_getLast_of_ne_nil]
    rw [if_neg hne, h.first, hlast]
    exact .inr ⟨_, ⟨htotal, h.byClass, rfl, List.getLast?_eq_getLast_of_ne_nil _⟩, rfl⟩

/-! ## The server with its log -/

/-- The contexts a step records; there is at most one. -/
def LaneOutcomes.records (o : LaneOutcomes) : OutcomeEvent → List RejectedLaneContext
  | .lane e detail => (o.server.disposal detail e).records.map Prod.snd
  | .record task elapsedMs =>
    ((o.owed.find? fun r => r.task = task).map fun r => r.context.timed elapsedMs).toList

/-- The contexts recorded so far, oldest first. -/
def LaneOutcomes.recordedContexts (o : LaneOutcomes) : List RejectedLaneContext :=
  (o.rejections.map Prod.snd).reverse

/-- The lane server with the rejection log. `counters` has the metrics that `record` incremented
and `reports` the warnings of `flush`, both oldest first; `stopped` is set by the epilog of
`serve_with_handler`. -/
structure LoggedServer where
  outcomes : LaneOutcomes
  summary : LaneRejectionSummary
  counters : List String
  reports : List RejectionReport
  stopped : Bool

/-- A step of the server, a tick of the rejection ticker, or the epilog: every task is reaped,
and then the log is flushed once more. -/
inductive LogEvent where
  | outcome (e : OutcomeEvent)
  | tick
  | epilog
  deriving DecidableEq, Repr

namespace LoggedServer

/-- A server that has accepted nothing. -/
def init : LoggedServer := ⟨.init, .default, [], [], false⟩

/-- `LaneRejectionLog::record`. -/
def record (s : LoggedServer) (context : RejectedLaneContext) : LoggedServer :=
  { s with
    summary := s.summary.record context
    counters := s.counters ++ [context.laneClass.metricName] }

/-- `LaneRejectionLog::flush`. -/
def flush (s : LoggedServer) : Option LoggedServer :=
  s.summary.flush.map fun (report, summary) =>
    { s with summary := summary, reports := s.reports ++ report.toList }

/-- One step. After the epilog there are none. -/
def step (s : LoggedServer) (e : LogEvent) : Option LoggedServer :=
  if s.stopped then none
  else
    match e with
    | .outcome e =>
      (s.outcomes.step e).map fun outcomes =>
        (s.outcomes.records e).foldl record { s with outcomes := outcomes }
    | .tick => s.flush
    | .epilog => s.flush.map fun s => { s with stopped := true }

end LoggedServer

/-- The server with its log as a machine. -/
def loggedServer : Machine LoggedServer LogEvent := ⟨LoggedServer.init, LoggedServer.step⟩

/-- The lane server decides at most one record in a step. -/
theorem length_records_disposal_le (s : LaneServer) (detail : Detail) (e : LaneEvent) :
    (s.disposal detail e).records.length ≤ 1 := by
  cases e <;> simp only [LaneServer.disposal, LaneServer.disposalOf, LaneServer.taskDisposal,
    LaneServer.pollDisposal, LaneServer.reinsertDisposal] <;>
    repeat' split
  all_goals first
    | exact Nat.zero_le 1
    | exact Nat.le_refl 1

/-- A step of the server makes the records it says. -/
theorem recordedContexts_of_step {o o' : LaneOutcomes} {e : OutcomeEvent}
    (h : o.step e = some o') :
    o'.recordedContexts = o.recordedContexts ++ (o.records e).reverse := by
  cases e with
  | lane e detail =>
    obtain ⟨server, -, rfl⟩ := Option.map_eq_some_iff.mp h
    simp [LaneOutcomes.recordedContexts, LaneOutcomes.records]
  | record task elapsedMs =>
    simp only [LaneOutcomes.step, LaneOutcomes.recordRejectedLane] at h
    split at h
    · rename_i r hr
      obtain rfl := Option.some.inj h
      simp [LaneOutcomes.recordedContexts, LaneOutcomes.records, hr]
    · cases h

/-- A step records at most one lane. -/
theorem LaneOutcomes.length_records_le (o : LaneOutcomes) (e : OutcomeEvent) :
    (o.records e).length ≤ 1 := by
  cases e with
  | lane e detail =>
    simpa [LaneOutcomes.records] using length_records_disposal_le o.server detail e
  | record task elapsedMs =>
    simp only [LaneOutcomes.records]
    cases o.owed.find? _ <;> simp

/-! ## Every rejection is reported once -/

/-- The log of a server: the contexts recorded so far fall into the windows that were reported,
in order, and the one that is open. -/
structure LogAccounts (s : LoggedServer) (windows : List (List RejectedLaneContext))
    (current : List RejectedLaneContext) : Prop where
  split : s.outcomes.recordedContexts = windows.flatten ++ current
  reported : List.Forall₂ Reports windows s.reports
  summary : Summarizes current s.summary
  counters : s.counters =
    s.outcomes.recordedContexts.map fun context => context.laneClass.metricName
  /-- nothing is left unreported when the server has returned -/
  stopped : s.stopped = true → current = []

/-- At the start nothing is logged. -/
theorem LogAccounts.init : LogAccounts .init [] [] :=
  ⟨rfl, .nil, summarizes_default, rfl, fun _ => rfl⟩

/-- A flush moves the open window to the reported ones. -/
theorem LogAccounts.flush {s : LoggedServer} {windows : List (List RejectedLaneContext)}
    {current : List RejectedLaneContext} (h : LogAccounts s windows current) :
    ∃ s' windows', s.flush = some s' ∧ s'.outcomes = s.outcomes ∧ s'.stopped = s.stopped ∧
      LogAccounts s' windows' [] := by
  rcases h.summary.flush with ⟨rfl, hflush⟩ | ⟨report, hreport, hflush⟩
  · refine ⟨{ s with summary := s.summary, reports := s.reports ++ [] }, windows, ?_, rfl, rfl, ?_⟩
    · rw [LoggedServer.flush, hflush]
      rfl
    · rw [List.append_nil]
      exact h
  · refine ⟨{ s with summary := .default, reports := s.reports ++ [report] },
      windows ++ [current], ?_, rfl, rfl, ?_⟩
    · rw [LoggedServer.flush, hflush]
      rfl
    · refine ⟨?_, ?_, summarizes_default, h.counters, fun _ => rfl⟩
      · rw [List.flatten_append, List.flatten_singleton, List.append_nil]
        exact h.split
      · exact List.rel_append h.reported (.cons hreport .nil)

/-- What one step does to the windows: a record lands in the open one, a tick closes it. -/
theorem LogAccounts.step {s s' : LoggedServer} {e : LogEvent}
    {windows : List (List RejectedLaneContext)} {current : List RejectedLaneContext}
    (h : LogAccounts s windows current) (hst : s.step e = some s') :
    ∃ windows' current', LogAccounts s' windows' current' := by
  unfold LoggedServer.step at hst
  split at hst
  · cases hst
  · rename_i hrunning
    obtain ⟨flushed, windows', hflush, -, hstopped, hnext⟩ := h.flush
    cases e with
    | outcome e =>
      obtain ⟨outcomes, hstep, rfl⟩ := Option.map_eq_some_iff.mp hst
      have hrecorded := recordedContexts_of_step hstep
      -- no step of the server records two contexts, so their order is not at issue
      rcases hrecords : s.outcomes.records e with _ | ⟨context, _ | ⟨_, _⟩⟩
      · rw [hrecords, List.reverse_nil, List.append_nil] at hrecorded
        exact ⟨windows, current, hrecorded ▸ h.split, h.reported, h.summary,
          hrecorded ▸ h.counters, h.stopped⟩
      · rw [hrecords, List.reverse_singleton] at hrecorded
        refine ⟨windows, current ++ [context], ?_, h.reported, h.summary.record context, ?_, ?_⟩
        · exact hrecorded.trans (by rw [h.split, List.append_assoc])
        · show s.counters ++ [_] = outcomes.recordedContexts.map _
          rw [hrecorded, List.map_append, h.counters]
          rfl
        · exact fun hs => absurd hs hrunning
      · have hle := s.outcomes.length_records_le e
        rw [hrecords, List.length_cons, List.length_cons] at hle
        omega
    | tick =>
      obtain rfl := Option.some.inj (hflush.symm.trans hst)
      exact ⟨windows', [], hnext⟩
    | epilog =>
      obtain ⟨t, ht, rfl⟩ := Option.map_eq_some_iff.mp hst
      obtain rfl := Option.some.inj (hflush.symm.trans ht)
      exact ⟨windows', [], hnext.split, hnext.reported, hnext.summary, hnext.counters,
        fun _ => rfl⟩

/-- The account holds in every run. -/
theorem logAccounts_of_reaches {C : LoggedServer → LogEvent → Prop} {s : LoggedServer}
    (h : loggedServer.ReachesWhere C s) : ∃ windows current, LogAccounts s windows current :=
  h.invariant (I := fun s => ∃ windows current, LogAccounts s windows current)
    ⟨[], [], .init⟩ fun _ _ _ ⟨_, _, hs⟩ _ hst => hs.step hst

/-- The windows of the log: what it should do at any time. -/
structure LogSafety (s : LoggedServer) : Prop where
  /-- the reported windows and the open one are the recorded contexts, each once and in order -/
  windows : ∃ windows current, LogAccounts s windows current
  /-- every flush succeeds -/
  flushes : (s.summary.flush).isSome = true
  /-- the metric of a class counts the rejections of that class and no others -/
  metrics : ∀ c : LaneRejectionClass,
    s.counters.count c.metricName = classCount s.outcomes.recordedContexts c

/-- A lane that is accepted and never says hello. -/
def failed (lane : LaneId) : List LogEvent :=
  (timely [.accept lane .bulk (.v4 0x0a000001#32 50003) (.v4 0x0a0000fe#32 444), .helloFailed lane,
    .dropPermit lane]).map .outcome

/-- **Nothing rejected is lost or reported twice**, wherever the ticks of the log fall between
the records of the lane tasks and the expiry worker. -/
theorem rejection_log_windows {s : LoggedServer} (h : loggedServer.Reaches s) : LogSafety s := by
  obtain ⟨windows, current, hs⟩ := logAccounts_of_reaches h
  refine ⟨⟨windows, current, hs⟩, ?_, ?_⟩
  · rcases hs.summary.flush with ⟨-, hflush⟩ | ⟨report, -, hflush⟩ <;> simp [hflush]
  · intro c
    rw [hs.counters, classCount, List.count, List.countP_map]
    refine List.countP_congr fun context _ => ?_
    simp [LaneRejectionClass.metricName_injective.eq_iff]

/-- Two rejections before a tick and one after it, which is still open. -/
theorem rejection_log_windows_three :
    ∃ s, loggedServer.Reaches s ∧ s.reports.map RejectionReport.rejected = [2] ∧
      s.summary.total = 1 ∧ LogSafety s := by
  have hrun : ∃ s, loggedServer.Reaches s ∧ s.reports.map RejectionReport.rejected = [2] ∧
      s.summary.total = 1 :=
    ⟨_, ⟨[failed 1, failed 2, failed 3].flatten ++
      [LogEvent.outcome (.record 1 5000), .outcome (.record 2 5000), .tick,
        .outcome (.record 3 5001)],
      Machine.run_of_exec rfl⟩, rfl, rfl⟩
  obtain ⟨s, hs, hreports, hopen⟩ := hrun
  exact ⟨s, hs, hreports, hopen, rejection_log_windows hs⟩

/-- The side condition of `one_lane_one_outcome`, on steps of the server with its log. -/
def LoggedServer.expiresNoBuilding (s : LoggedServer) : LogEvent → Bool
  | .outcome e => s.outcomes.expiresNoBuilding e
  | _ => true

end RtpMux

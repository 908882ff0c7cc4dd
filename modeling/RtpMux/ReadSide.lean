import RtpMux.Machine

/-!
# The read side of a client stream (`client_stream.rs`)

A new stream has no reader yet. It first waits for the reader of its first generation, which the mux
hands over on a oneshot channel; it injects that reader into the connection's response router, and
waits for the spliced reader that the router answers with; from then on it reads through the spliced
reader. `poll_reader_state` is a loop over these stages: it goes on as long as a stage is complete,
and a stage whose channel closes fails the stream for good.

A future must not be polled again once it has completed: a oneshot receiver and an `async` block
both panic then. A completed one is therefore a stage of its own here (`Oneshot.taken`,
`InjectFuture.done`), and the poll of it is the outcome `panicked`. The router may answer while the
future is polled for the first time, or at any time later. What the spliced reader answers to a poll
is any value of a type `ρ`, its pending answers included.

`injected`, `results` and `answers` record what happened and are read by no step.
-/

namespace RtpMux

universe u

/-- `tokio::sync::oneshot::Receiver`, of which only the presence of a value is used. -/
inductive Oneshot where
  | waiting
  | sent
  | closed
  /-- its result was taken -/
  | taken
  deriving DecidableEq, Repr

/-- The future of `PendingInject`: the injection into the router, then the router's answer. -/
inductive InjectFuture where
  | unpolled
  /-- the injection, and the channel for the spliced reader that it will return -/
  | injecting (router splice : Oneshot)
  | receiving (splice : Oneshot)
  | done
  deriving DecidableEq, Repr

/-- `ReaderState`, without the variants of the tests. -/
inductive ReaderState where
  | pendingGene (gen0 : Oneshot)
  | pendingInject (future : InjectFuture)
  | readySpliced
  | failed (reason : String)
  deriving DecidableEq, Repr

/-- What a poll of the stream comes to: the stream's own answers, or the spliced reader's. -/
inductive ReadResult (ρ : Type u) where
  | pending
  | forwarded (answer : ρ)
  /-- an error of kind `BrokenPipe` -/
  | brokenPipe (reason : String)
  deriving DecidableEq, Repr

/-- A stream's read side with what it did. -/
structure ReadSide (ρ : Type u) where
  logicalId : Nat
  state : ReaderState
  injected : List Nat
  results : List (ReadResult ρ)
  answers : List ρ

/-- How one turn of the loop ends. -/
inductive Turn (ρ : Type u) where
  | goOn (s : ReadSide ρ)
  | returned (result : ReadResult ρ) (s : ReadSide ρ)
  | panicked

/-- The error of the first reader's channel. -/
def gen0Closed : String := "gen-0 reader channel closed before write"

/-- The error of the channel of a response. -/
def spliceClosed : String := "response splice channel closed before write"

namespace ReadSide

variable {ρ : Type u}

/-- `ClientStream::new_duplex`, for what concerns reading. -/
def new (logicalId : Nat) : ReadSide ρ := ⟨logicalId, .pendingGene .waiting, [], [], []⟩

/-- A poll of the spliced reader's channel inside the injection future. -/
def pollReceiving (s : ReadSide ρ) : Oneshot → Turn ρ
  | .waiting => .returned .pending { s with state := .pendingInject (.receiving .waiting) }
  | .sent => .goOn { s with state := .readySpliced }
  | .closed => .goOn { s with state := .failed spliceClosed }
  | .taken => .panicked

/-- A poll of the injection itself. -/
def pollInjecting (s : ReadSide ρ) (router splice : Oneshot) : Turn ρ :=
  match router with
  | .waiting => .returned .pending { s with state := .pendingInject (.injecting .waiting splice) }
  | .sent => s.pollReceiving splice
  | .closed => .goOn { s with state := .failed spliceClosed }
  | .taken => .panicked

/-- What the outside may say during a poll: the router, if the injection future is polled for the
first time, and the spliced reader, if it is polled. -/
structure Outside (ρ : Type u) where
  router : Oneshot
  splice : Oneshot
  answer : ρ

/-- One turn of the loop of `poll_reader_state`. -/
def turn (s : ReadSide ρ) (o : Outside ρ) : Turn ρ :=
  match s.state with
  | .pendingGene gen0 =>
    match gen0 with
    | .waiting => .returned .pending s
    | .sent => .goOn { s with state := .pendingInject .unpolled }
    | .closed => .goOn { s with state := .failed gen0Closed }
    | .taken => .panicked
  | .pendingInject future =>
    match future with
    | .unpolled => { s with
      injected := s.injected ++ [s.logicalId] }.pollInjecting o.router o.splice
    | .injecting router splice => s.pollInjecting router splice
    | .receiving splice => s.pollReceiving splice
    | .done => .panicked
  | .readySpliced => .returned (.forwarded o.answer) { s with answers := s.answers ++ [o.answer] }
  | .failed reason => .returned (.brokenPipe reason) s

/-- The loop, for a number of turns. -/
def loop : Nat → ReadSide ρ → Outside ρ → Turn ρ
  | 0, s, _ => .goOn s
  | turns + 1, s, o =>
    match s.turn o with
    | .goOn s => loop turns s o
    | done => done

/-- `poll_reader_state`, as a step: the loop runs to its end, which takes three turns at most
(`loop_returns`). -/
def poll (s : ReadSide ρ) (o : Outside ρ) : Option (ReadSide ρ) :=
  match loop 3 s o with
  | .returned result s => some { s with results := s.results ++ [result] }
  | _ => none

/-- Something happens to a channel that is still open. -/
def settle (ok : Bool) : Oneshot := if ok then .sent else .closed

end ReadSide

/-- A poll of the stream, or one of the channels it waits on gets its value or is closed. -/
inductive ReadEvent (ρ : Type u) where
  | poll (o : ReadSide.Outside ρ)
  | gen0 (ok : Bool)
  | router (ok : Bool)
  | splice (ok : Bool)

namespace ReadSide

variable {ρ : Type u}

/-- One step. A fresh channel was not taken from before, and the router's channel for the reader
exists once the injection has returned. -/
def step (s : ReadSide ρ) : ReadEvent ρ → Option (ReadSide ρ)
  | .poll o =>
    if o.router = .taken ∨ o.splice = .taken ∨ (o.router ≠ .sent ∧ o.splice ≠ .waiting) then none
    else s.poll o
  | .gen0 ok =>
    match s.state with
    | .pendingGene .waiting => some { s with state := .pendingGene (settle ok) }
    | _ => none
  | .router ok =>
    match s.state with
    | .pendingInject (.injecting .waiting splice) =>
      some { s with state := .pendingInject (.injecting (settle ok) splice) }
    | _ => none
  | .splice ok =>
    match s.state with
    | .pendingInject (.injecting .sent .waiting) =>
      some { s with state := .pendingInject (.injecting .sent (settle ok)) }
    | .pendingInject (.receiving .waiting) =>
      some { s with state := .pendingInject (.receiving (settle ok)) }
    | _ => none

end ReadSide

/-- The read side as a machine. -/
def readSide (ρ : Type u) (logicalId : Nat) : Machine (ReadSide ρ) (ReadEvent ρ) :=
  ⟨ReadSide.new logicalId, ReadSide.step⟩

/-! ## What the stream says over a whole run -/

namespace ReadSide

variable {ρ : Type u} {s : ReadSide ρ} {o : Outside ρ}

/-- No future of the state has completed, and the spliced reader's channel is untouched until the
injection returns. -/
def Live : ReaderState → Prop
  | .pendingGene gen0 => gen0 ≠ .taken
  | .pendingInject .unpolled => True
  | .pendingInject (.injecting router splice) =>
    router ≠ .taken ∧ splice ≠ .taken ∧ (router ≠ .sent → splice = .waiting)
  | .pendingInject (.receiving splice) => splice ≠ .taken
  | .pendingInject .done => False
  | .readySpliced => True
  | .failed reason => reason = gen0Closed ∨ reason = spliceClosed

/-- How often the first reader was handed to the router. -/
def injections : ReaderState → Nat
  | .pendingGene _ => 0
  | .pendingInject .unpolled => 0
  | .failed reason => if reason = gen0Closed then 0 else 1
  | _ => 1

/-- The answers of the polls so far: the stream was pending for a while; then it forwarded every
answer of the spliced reader, or gave the one reason it failed for. -/
def Told (s : ReadSide ρ) : Prop :=
  ∃ k, match s.state with
    | .readySpliced => s.results = List.replicate k ReadResult.pending ++ s.answers.map .forwarded
    | .failed reason =>
      s.answers = [] ∧ ∃ m, s.results = List.replicate k ReadResult.pending ++
        List.replicate m (.brokenPipe reason)
    | _ => s.answers = [] ∧ s.results = List.replicate k .pending

/-- The invariant of the read side. -/
structure Inv (s : ReadSide ρ) : Prop where
  live : Live s.state
  injected : s.injected = List.replicate (injections s.state) s.logicalId
  told : Told s

/-- The outside says something that can be. -/
def Outside.Possible (o : Outside ρ) : Prop :=
  ¬ (o.router = .taken ∨ o.splice = .taken ∨ (o.router ≠ .sent ∧ o.splice ≠ .waiting))

/-- How many turns a poll may still take. -/
def turnsLeft : ReaderState → Nat
  | .pendingGene _ => 3
  | .pendingInject _ => 2
  | _ => 1

/-- The answer is added to what was told. -/
def tell (s : ReadSide ρ) (result : ReadResult ρ) : ReadSide ρ :=
  { s with results := s.results ++ [result] }

/-- A turn goes on to a later stage, or returns; it never polls a future that has completed. -/
inductive TurnOk (s : ReadSide ρ) : Turn ρ → Prop where
  | goOn {s' : ReadSide ρ} (inv : Inv s') (later : turnsLeft s'.state < turnsLeft s.state)
      (same : s'.logicalId = s.logicalId) : TurnOk s (.goOn s')
  | returned {result : ReadResult ρ} {s' : ReadSide ρ} (inv : Inv (s'.tell result))
      (same : s'.logicalId = s.logicalId) : TurnOk s (.returned result s')

/-- A pending poll keeps the invariant. -/
theorem inv_pending (hlive : Live s.state) (hstage : turnsLeft s.state ≠ 1)
    (hinjected : s.injected = List.replicate (injections s.state) s.logicalId)
    (htold : ∃ k, s.answers = [] ∧ s.results = List.replicate k .pending) :
    Inv (s.tell .pending) := by
  obtain ⟨k, hanswers, hresults⟩ := htold
  refine ⟨hlive, hinjected, k + 1, ?_⟩
  have htold : s.answers = [] ∧
      s.results ++ [ReadResult.pending] = List.replicate (k + 1) .pending :=
    ⟨hanswers, by rw [hresults, List.replicate_succ']⟩
  show match s.state with
    | .readySpliced => _
    | .failed reason => _
    | _ => _
  cases hstate : s.state with
  | readySpliced => exact absurd (by rw [hstate]; rfl) hstage
  | failed reason => exact absurd (by rw [hstate]; rfl) hstage
  | pendingGene gen0 => exact htold
  | pendingInject future => exact htold

/-- A poll of the spliced reader's channel, once the first reader was injected. -/
theorem pollReceiving_ok {t : ReadSide ρ} {splice : Oneshot} (hsplice : splice ≠ .taken)
    (hbefore : 1 < turnsLeft s.state) (hsame : t.logicalId = s.logicalId)
    (hinjected : t.injected = [t.logicalId])
    (htold : ∃ k, t.answers = [] ∧ t.results = List.replicate k .pending) :
    TurnOk s (t.pollReceiving splice) := by
  cases splice with
  | taken => exact absurd rfl hsplice
  | waiting =>
    exact .returned (inv_pending (s := { t with state := .pendingInject (.receiving .waiting) })
      hsplice (by simp [turnsLeft]) hinjected htold) hsame
  | sent =>
    obtain ⟨k, hanswers, hresults⟩ := htold
    exact .goOn ⟨trivial, hinjected, k, by simp [hanswers, hresults]⟩ hbefore hsame
  | closed =>
    obtain ⟨k, hanswers, hresults⟩ := htold
    refine .goOn ⟨.inr rfl, ?_, k, hanswers, 0, by simp [hresults]⟩ hbefore hsame
    simpa [injections, gen0Closed, spliceClosed] using hinjected

/-- A poll of the injection future that has called the router. -/
theorem pollInjecting_ok {t : ReadSide ρ} {router splice : Oneshot} (hrouter : router ≠ .taken)
    (hsplice : splice ≠ .taken) (horder : router ≠ .sent → splice = .waiting)
    (hbefore : 1 < turnsLeft s.state) (hsame : t.logicalId = s.logicalId)
    (hinjected : t.injected = [t.logicalId])
    (htold : ∃ k, t.answers = [] ∧ t.results = List.replicate k .pending) :
    TurnOk s (t.pollInjecting router splice) := by
  cases router with
  | taken => exact absurd rfl hrouter
  | waiting =>
    exact .returned (inv_pending
      (s := { t with state := .pendingInject (.injecting .waiting splice) })
      ⟨hrouter, hsplice, horder⟩ (by simp [turnsLeft]) hinjected htold) hsame
  | sent => exact pollReceiving_ok hsplice hbefore hsame hinjected htold
  | closed =>
    obtain ⟨k, hanswers, hresults⟩ := htold
    refine .goOn ⟨.inr rfl, ?_, k, hanswers, 0, by simp [hresults]⟩ hbefore hsame
    simpa [injections, gen0Closed, spliceClosed] using hinjected

/-- A turn of the poll's loop ends the poll or comes closer to its end. -/
theorem turn_ok (h : Inv s) (ho : o.Possible) : TurnOk s (s.turn o) := by
  obtain ⟨hlive, hinjected, k, htold⟩ := h
  unfold turn
  unfold Outside.Possible at ho
  push Not at ho
  -- one case for each state of the future; each polls one receiver
  cases hstate : s.state with
  | pendingGene gen0 =>
    rw [hstate] at hlive htold hinjected
    have hbefore : ∀ n, n < 3 → n < turnsLeft s.state := by
      intro n hn
      rw [hstate]
      exact hn
    cases gen0 with
    | taken => exact absurd rfl hlive
    | waiting =>
      refine .returned (inv_pending ?_ ?_ ?_ ⟨k, htold⟩) rfl
      · rw [hstate]
        exact hlive
      · simp [hstate, turnsLeft]
      · rw [hstate]
        exact hinjected
    | sent => exact .goOn ⟨trivial, hinjected, k, htold⟩ (hbefore 2 (by decide)) rfl
    | closed =>
      exact .goOn ⟨.inl rfl, hinjected, k, htold.1, 0, by simp [htold.2]⟩
        (hbefore 1 (by decide)) rfl
  | pendingInject future =>
    rw [hstate] at hlive htold hinjected
    have hbefore : 1 < turnsLeft s.state := by simp [hstate, turnsLeft]
    cases future with
    | unpolled =>
      refine pollInjecting_ok ho.1 ho.2.1 ho.2.2 hbefore rfl ?_ ⟨k, htold⟩
      show s.injected ++ [s.logicalId] = [s.logicalId]
      rw [hinjected]
      rfl
    | injecting router splice =>
      exact pollInjecting_ok hlive.1 hlive.2.1 hlive.2.2 hbefore rfl hinjected ⟨k, htold⟩
    | receiving splice => exact pollReceiving_ok hlive hbefore rfl hinjected ⟨k, htold⟩
    | done => exact absurd hlive (by simp [Live])
  | readySpliced =>
    rw [hstate] at htold hinjected
    refine .returned ⟨trivial, hinjected, k, ?_⟩ rfl
    simp only [tell, htold, List.map_append, List.map_cons, List.map_nil, List.append_assoc]
  | failed reason =>
    rw [hstate] at hlive htold hinjected
    obtain ⟨hanswers, m, hresults⟩ := htold
    refine .returned ⟨?_, ?_, k, ?_⟩ rfl
    · show Live s.state
      rw [hstate]
      exact hlive
    · show s.injected = List.replicate (injections s.state) s.logicalId
      rw [hstate]
      exact hinjected
    · simp only [tell, hstate]
      refine ⟨hanswers, m + 1, ?_⟩
      rw [hresults, List.replicate_succ', List.append_assoc]

/-- The loop of a poll returns within the turns that are left. -/
theorem loop_returns (ho : o.Possible) : ∀ (turns : Nat) {s : ReadSide ρ}, Inv s →
    turnsLeft s.state ≤ turns → ∃ result s', s.loop turns o = .returned result s' ∧
      Inv (s'.tell result) ∧ s'.logicalId = s.logicalId := by
  intro turns
  induction turns with
  | zero =>
    intro s _ hle
    have hpos : 0 < turnsLeft s.state := by cases s.state <;> simp [turnsLeft]
    omega
  | succ turns ih =>
    intro s h hle
    rw [loop]
    have hok := turn_ok h ho
    cases hturn : s.turn o with
    | goOn s' =>
      rw [hturn] at hok
      cases hok with
      | goOn inv later same =>
        obtain ⟨result, t, hloop, ht, hid⟩ := ih inv (by omega)
        exact ⟨result, t, hloop, ht, hid.trans same⟩
    | returned result s' =>
      rw [hturn] at hok
      cases hok with
      | returned inv same => exact ⟨result, s', rfl, inv, same⟩
    | panicked =>
      rw [hturn] at hok
      cases hok

/-- A poll returns, and the invariant holds. -/
theorem poll_returns (h : Inv s) (ho : o.Possible) :
    ∃ s', s.poll o = some s' ∧ Inv s' ∧ s'.logicalId = s.logicalId := by
  obtain ⟨result, s', hloop, hinv, hid⟩ := loop_returns ho 3 h
    (by cases s.state <;> simp [turnsLeft])
  exact ⟨s'.tell result, by rw [poll, hloop]; rfl, hinv, hid⟩

/-- A channel that the state waits on gets its value or is closed; nothing is told. -/
theorem inv_settle (h : Inv s) {state : ReaderState} (hlive : Live state)
    (hbefore : turnsLeft s.state ≠ 1) (hafter : turnsLeft state ≠ 1)
    (hinjections : injections state = injections s.state) : Inv { s with state := state } := by
  obtain ⟨-, hinjected, k, htold⟩ := h
  refine ⟨hlive, hinjections ▸ hinjected, k, ?_⟩
  have htold : s.answers = [] ∧ s.results = List.replicate k .pending := by
    cases hstate : s.state with
    | pendingGene gen0 =>
      rw [hstate] at htold
      exact htold
    | pendingInject future =>
      rw [hstate] at htold
      exact htold
    | readySpliced => exact absurd (by rw [hstate]; rfl) hbefore
    | failed reason => exact absurd (by rw [hstate]; rfl) hbefore
  cases state with
  | pendingGene gen0 => exact htold
  | pendingInject future => exact htold
  | readySpliced => exact absurd rfl hafter
  | failed reason => exact absurd rfl hafter

theorem settle_ne (ok : Bool) : settle ok ≠ .taken := by cases ok <;> simp [settle]

/-- A step keeps the invariant and the logical id. -/
theorem Inv.step {s' : ReadSide ρ} {e : ReadEvent ρ} (h : Inv s) (hst : s.step e = some s') :
    Inv s' ∧ s'.logicalId = s.logicalId := by
  cases e with
  | poll o =>
    simp only [ReadSide.step] at hst
    split at hst
    · cases hst
    · rename_i ho
      obtain ⟨t, ht, hinv, hid⟩ := poll_returns h ho
      obtain rfl := Option.some.inj (ht.symm.trans hst)
      exact ⟨hinv, hid⟩
  | gen0 ok =>
    simp only [ReadSide.step] at hst
    split at hst
    · rename_i hstate
      obtain rfl := Option.some.inj hst
      exact ⟨inv_settle h (settle_ne ok) (by simp [hstate, turnsLeft]) (by simp [turnsLeft])
        (by simp [hstate, injections]), rfl⟩
    · cases hst
  | router ok =>
    simp only [ReadSide.step] at hst
    split at hst
    · rename_i splice hstate
      obtain rfl := Option.some.inj hst
      have hlive := h.live
      rw [hstate] at hlive
      exact ⟨inv_settle h ⟨settle_ne ok, hlive.2.1, fun _ => hlive.2.2 (by simp)⟩
        (by simp [hstate, turnsLeft]) (by simp [turnsLeft]) (by simp [hstate, injections]), rfl⟩
    · cases hst
  | splice ok =>
    simp only [ReadSide.step] at hst
    split at hst
    · rename_i hstate
      obtain rfl := Option.some.inj hst
      exact ⟨inv_settle h ⟨by simp, settle_ne ok, fun hne => absurd rfl hne⟩
        (by simp [hstate, turnsLeft]) (by simp [turnsLeft]) (by simp [hstate, injections]), rfl⟩
    · rename_i hstate
      obtain rfl := Option.some.inj hst
      exact ⟨inv_settle h (settle_ne ok) (by simp [hstate, turnsLeft]) (by simp [turnsLeft])
        (by simp [hstate, injections]), rfl⟩
    · cases hst

end ReadSide

/-- What a stream's read side does, at any time. -/
structure ReadSafety {ρ : Type u} (s : ReadSide ρ) (logicalId : Nat) : Prop where
  /-- a poll returns: the loop ends, and no completed future is polled -/
  returns : ∀ o : ReadSide.Outside ρ, o.Possible → ∃ s', s.step (.poll o) = some s'
  /-- pending answers, then those of the spliced reader, each once and in order, or one reason -/
  told : ReadSide.Told s
  reasons : ∀ reason, s.state = .failed reason → reason = gen0Closed ∨ reason = spliceClosed
  /-- the first reader is injected at most once, under the stream's own id, and before any data -/
  injected : s.injected = [] ∨ s.injected = [logicalId]
  injectedFirst : s.answers ≠ [] → s.injected = [logicalId]

/-- **The read side of a stream**, whatever its channels do and however often it is polled. -/
theorem read_side_safety {ρ : Type u} {logicalId : Nat} {s : ReadSide ρ}
    (h : (readSide ρ logicalId).Reaches s) : ReadSafety s logicalId := by
  obtain ⟨hinv, hid⟩ : s.Inv ∧ s.logicalId = logicalId := by
    refine h.invariant (I := fun s => s.Inv ∧ s.logicalId = logicalId)
      ⟨⟨by simp [readSide, ReadSide.new, ReadSide.Live], rfl, 0, rfl, rfl⟩, rfl⟩ ?_
    rintro s e s' ⟨hinv, hid⟩ hst
    obtain ⟨hinv', hid'⟩ := hinv.step hst
    exact ⟨hinv', hid'.trans hid⟩
  have hinjected := hinv.injected
  rw [hid] at hinjected
  refine ⟨?_, hinv.told, ?_, ?_, ?_⟩
  · intro o ho
    obtain ⟨s', hs', -⟩ := ReadSide.poll_returns hinv ho
    exact ⟨s', by rw [ReadSide.step, if_neg ho, hs']⟩
  · intro reason hstate
    have hlive := hinv.live
    rw [hstate] at hlive
    exact hlive
  · have hle : ReadSide.injections s.state ≤ 1 := by
      unfold ReadSide.injections
      split <;> try split
      all_goals decide
    rcases Nat.le_one_iff_eq_zero_or_eq_one.mp hle with hzero | hone
    · exact .inl (by rw [hinjected, hzero]; rfl)
    · exact .inr (by rw [hinjected, hone]; rfl)
  · intro hanswers
    obtain ⟨k, htold⟩ := hinv.told
    cases hstate : s.state with
    | readySpliced =>
      rw [hinjected, hstate]
      rfl
    | pendingGene gen0 =>
      rw [hstate] at htold
      exact absurd htold.1 hanswers
    | pendingInject future =>
      rw [hstate] at htold
      exact absurd htold.1 hanswers
    | failed reason =>
      rw [hstate] at htold
      exact absurd htold.1 hanswers

/-- A stream that is polled before its first reader comes, and then reads twice. -/
theorem read_side_safety_two :
    ∃ s, (readSide Nat 42).Reaches s ∧ s.results = [.pending, .forwarded 7, .forwarded 8] ∧
      s.injected = [42] ∧ ReadSafety s 42 := by
  have hrun : ∃ s, (readSide Nat 42).Reaches s ∧
      s.results = [.pending, .forwarded 7, .forwarded 8] ∧ s.injected = [42] :=
    ⟨_, ⟨[.poll ⟨.waiting, .waiting, 0⟩, .gen0 true, .poll ⟨.sent, .sent, 7⟩,
      .poll ⟨.waiting, .waiting, 8⟩], Machine.run_of_exec rfl⟩, rfl, rfl⟩
  obtain ⟨s, hs, hresults, hinjected⟩ := hrun
  exact ⟨s, hs, hresults, hinjected, read_side_safety hs⟩

end RtpMux

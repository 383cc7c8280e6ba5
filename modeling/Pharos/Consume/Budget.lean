import Pharos.Consume.Conservation

/-!
# The retry budget

`process_idempotent_with_retry` reads the budget off `Delivery::attempt`.  The broker's
`nack` raises it whenever it requeues, also for a delivery that was only sent back because
another consumer holds the message: such a delivery is dead-lettered after fewer handler
failures than the policy grants (`budget_overspent`).  As long as no delivery meets an
unexpired claim, `attempt` counts handler failures and nothing else (`budget_of_reaches`).
-/

namespace Pharos

namespace Consumer

open Async

/-- A handler that failed. -/
def Fails : ConsumeEvent → Prop
  | ⟨_, .handle _, .error _⟩ => True
  | _ => False

instance : DecidablePred Fails
  | ⟨_, .handle _, .error _⟩ => .isTrue trivial
  | ⟨_, .handle _, .ok _⟩ | ⟨_, .beginProcessing _ _, _⟩ | ⟨_, .markCompleted _ _, _⟩
  | ⟨_, .markFailed _ _ _, _⟩ | ⟨_, .decide _ _, _⟩ | ⟨_, .deadLetter _ _ _, _⟩ | ⟨_, .ack _, _⟩
  | ⟨_, .nack _ _, _⟩ => .isFalse id

/-- How often the handler failed for a copy. -/
def copyFailures (p : BrokerPool) (copy : ℕ) : ℕ :=
  p.trace.countP fun entry => Fails entry.event ∧ entry.args.delivery.copy = copy

/-- How often the handler failed for a message. -/
def failures (p : BrokerPool) (id : Uuid) : ℕ :=
  p.trace.countP fun entry => Fails entry.event ∧ entry.args.messageId = id

/-- `begin_processing` finds no record that is being processed under an unexpired lease. -/
def NoContention (p : BrokerPool) : Action ConsumeChoice BrokerArrival → Prop
  | .arrive _ => True
  | .step i choice => ∀ t ∈ p.tasks[i]?,
      t.rest.awaited = some (.beginProcessing t.args.messageId t.args.consumer) →
      ∀ record ∈ p.shared.inbox.get t.args.messageId t.args.consumer,
        record.status = .processing →
        record.updatedAt + p.shared.inbox.staleAfter ≤ choice.read

instance (p : BrokerPool) : DecidablePred (NoContention p)
  | .arrive _ => .isTrue trivial
  | .step i _ => inferInstanceAs (Decidable (∀ t ∈ p.tasks[i]?, _))

/-- The delivery met an unexpired claim. -/
def Contends : ConsumeEvent → Prop
  | ⟨_, .beginProcessing _ _, .ok .alreadyProcessing⟩ => True
  | _ => False

/-- The policy gives up only when the attempts are used up. -/
def Decided : ConsumeEvent → Prop
  | ⟨_, .decide retry attempt, .deadLetter⟩ => retry.maxAttempts ≤ attempt
  | _ => True

/-- The handler of the call has failed. -/
def Failed (t : ConsumeTask) : Prop := ∃ event ∈ t.past, Fails event

section Budget

variable {retry : RetryPolicy} {s s' : ConsumeShared InMemoryOutside} {p q : BrokerPool}
  {choice : ConsumeChoice} {op : ConsumeOp} {reply : op.Reply} {t u : ConsumeTask} {i j : ℕ}
  {C : BrokerPool → Action ConsumeChoice BrokerArrival → Prop} {staleAfter : Duration}
  {epoch : Time} {a : Call} {past : List ConsumeEvent}

/-! ## What a call did before it returns its delivery -/

theorem not_contends_of_reaches
    (reached : (system (inMemory retry)).Reaches NoContention (initial staleAfter epoch {}) p) :
    ∀ t ∈ p.tasks, ∀ event ∈ t.past, ¬ Contends event := by
  refine reached.forall_tasks (Q := fun _ past => ∀ event ∈ past, ¬ Contends event)
    rfl (fun a event member => by cases member) ?_
  intro q i t op next choice shared reply before found rest side served all event member
  rcases List.mem_cons.mp member with rfl | old
  · intro contends
    have awaits := (awaits_of_reaches before found rest).1
    have step := serve_inbox served
    generalize shared.inbox = inbox' at step
    cases step
    case held id consumer record stored processing leased =>
        generalize t.past = past at awaits
        cases awaits
        have stale := side t found (by rw [rest]; rfl) record stored processing
        exact absurd leased (not_lt.mpr stale)
    case foreign other =>
        cases op with
        | beginProcessing id consumer => exact other trivial
        | _ => exact contends
    all_goals exact contends
  · exact all event old

theorem decided_of_reaches
    (reached : (system (inMemory retry)).Reaches C (initial staleAfter epoch {}) p) :
    ∀ t ∈ p.tasks, ∀ event ∈ t.past, Decided event := by
  refine reached.forall_tasks (Q := fun _ past => ∀ event ∈ past, Decided event)
    rfl (fun a event member => by cases member) ?_
  intro q i t op next choice shared reply before found rest side served all event member
  rcases List.mem_cons.mp member with rfl | old
  · cases op with
    | decide policy attempt =>
        have answer : policy.decide attempt choice.drawn = reply := by
          cases served
          rfl
        cases reply with
        | retryAfter delay => trivial
        | deadLetter => exact RetryPolicy.decide_eq_deadLetter.mp answer
    | _ => trivial
  · exact all event old

/-- A call that marks a failure, or is past it, had its handler fail. -/
theorem Awaits.failed (awaits : Awaits a past op)
    (late : (∃ error, op = .markFailed a.messageId a.consumer error) ∨
      (∃ policy, op = .decide policy a.delivery.attempt) ∨
      ∃ error, op = .deadLetter a.delivery.message error a.delivery.attempt) :
    ∃ event ∈ past, Fails event := by
  induction awaits with
  | fails choice error before _ => exact ⟨_, List.mem_cons_self, trivial⟩
  | decides choice error policy bounded before ih =>
      obtain ⟨event, member, failed⟩ := ih (.inl ⟨error, rfl⟩)
      exact ⟨event, List.mem_cons_of_mem _ member, failed⟩
  | givesUp choice policy error before ih =>
      obtain ⟨event, member, failed⟩ := ih (.inr (.inl ⟨policy, rfl⟩))
      exact ⟨event, List.mem_cons_of_mem _ member, failed⟩
  | _ => rcases late with ⟨_, h⟩ | ⟨_, h⟩ | ⟨_, h⟩ <;> cases h

/-- Without contention a delivery is requeued only after its handler failed. -/
theorem Awaits.of_requeue {delivery : Delivery} (awaits : Awaits a past (.nack delivery true))
    (bounded : a.retry = some retry) (alone : ∀ event ∈ past, ¬ Contends event) :
    delivery = a.delivery ∧ ∃ event ∈ past, Fails event := by
  cases awaits with
  | contention choice => exact (alone _ List.mem_cons_self trivial).elim
  | requeues choice error unbounded before => cases bounded.symm.trans unbounded
  | retries choice policy delay before =>
      obtain ⟨event, member, failed⟩ := before.failed (.inr (.inl ⟨policy, rfl⟩))
      exact ⟨rfl, event, List.mem_cons_of_mem _ member, failed⟩

/-- A message is dead-lettered after its handler failed and the attempts are used up. -/
theorem Awaits.of_deadLetter {message : Message} {reason : String} {attempts : ℕ}
    (awaits : Awaits a past (.deadLetter message reason attempts)) (bounded : a.retry = some retry)
    (decided : ∀ event ∈ past, Decided event) :
    message = a.delivery.message ∧ retry.maxAttempts ≤ a.delivery.attempt ∧
      ∃ event ∈ past, Fails event := by
  cases awaits with
  | givesUp choice policy error before =>
      obtain ⟨event, member, failed⟩ := before.failed (.inr (.inl ⟨policy, rfl⟩))
      refine ⟨rfl, ?_, event, List.mem_cons_of_mem _ member, failed⟩
      have spent : policy.maxAttempts ≤ a.delivery.attempt := decided _ List.mem_cons_self
      cases before with
      | decides choice' error' policy' bounded' before' =>
          cases bounded.symm.trans bounded'
          exact spent

/-! ## The counts -/

theorem copyFailures_advance (p : BrokerPool) (t : ConsumeTask) (event : ConsumeEvent)
    (rest : ConsumeM ProcessResult) (copy : ℕ) :
    copyFailures (p.advance i t event s' rest) copy = copyFailures p copy +
      if Fails event ∧ t.args.delivery.copy = copy then 1 else 0 := by
  unfold copyFailures
  rw [Pool.advance_trace, List.countP_append, List.countP_singleton]
  simp only [decide_eq_true_eq]

theorem failures_le_advance (p : BrokerPool) (t : ConsumeTask) (event : ConsumeEvent)
    (rest : ConsumeM ProcessResult) (id : Uuid) :
    failures p id ≤ failures (p.advance i t event s' rest) id := by
  unfold failures
  rw [Pool.advance_trace, List.countP_append]
  exact Nat.le_add_right _ _

/-- Everything in the trace is about copies that were published. -/
theorem genuine_of_mem_trace
    (reached : (system (inMemory retry)).Reaches C (initial staleAfter epoch {}) p)
    {entry : ConsumeEntry InMemoryOutside} (member : entry ∈ p.trace) :
    Genuine p entry.args.delivery := by
  obtain ⟨t, found, same⟩ := (reached.past_eq rfl rfl).2 entry member
  exact same ▸ ((stock_of_reaches reached).inCall t (List.mem_of_getElem? found)).1

/-- The failures for a copy are failures for its message. -/
theorem copyFailures_le
    (reached : (system (inMemory retry)).Reaches C (initial staleAfter epoch {}) p)
    {delivery : Delivery} (genuine : Genuine p delivery) :
    copyFailures p delivery.copy ≤ failures p delivery.message.messageId := by
  refine List.countP_mono_left fun entry member counted => ?_
  obtain ⟨fails, same⟩ := of_decide_eq_true counted
  have published := genuine_of_mem_trace reached member
  unfold Genuine at published genuine
  rw [same, genuine] at published
  refine decide_eq_true ⟨fails, ?_⟩
  rw [Call.messageId, Option.some.inj published]

theorem copyFailures_fresh
    (reached : (system (inMemory retry)).Reaches C (initial staleAfter epoch {}) p) :
    copyFailures p p.shared.outside.published.length = 0 := by
  refine List.countP_eq_zero.mpr fun entry member counted => ?_
  have published := genuine_of_mem_trace reached member
  unfold Genuine at published
  rw [(of_decide_eq_true counted).2, List.getElem?_eq_none le_rfl] at published
  cases published

theorem copyFailures_pos
    (reached : (system (inMemory retry)).Reaches C (initial staleAfter epoch {}) p)
    (found : p.tasks[i]? = some t) (failed : Failed t) :
    0 < copyFailures p t.args.delivery.copy := by
  obtain ⟨event, member, fails⟩ := failed
  obtain ⟨entry, inTrace, -, sameArgs, rfl⟩ := reached.mem_trace rfl rfl found member
  exact List.countP_pos_iff.mpr ⟨entry, inTrace, decide_eq_true ⟨fails, sameArgs ▸ rfl⟩⟩

/-- A copy that a call holds is nowhere else. -/
theorem Stock.alone (stock : Stock retry p) (found : p.tasks[i]? = some t) (holds : Holds t) :
    (∀ topic, ∀ delivery ∈ p.shared.outside.broker.queue topic,
      delivery.copy ≠ t.args.delivery.copy) ∧
    ∀ (j : ℕ) u, p.tasks[j]? = some u → j ≠ i → Holds u →
      u.args.delivery.copy ≠ t.args.delivery.copy := by
  have conserved := stock.conserved t.args.delivery.copy
  have once : queued p t.args.delivery.copy + held p t.args.delivery.copy ≤ 1 := by
    split_ifs at conserved <;> omega
  refine ⟨fun topic delivery member same => ?_, fun j u at_j distinct holds' same => ?_⟩
  · have inQueue : 0 < queued p delivery.copy := InMemoryMessageBroker.queued_pos member
    have inCall : 0 < held p t.args.delivery.copy :=
      List.countP_pos_iff.mpr ⟨t, List.mem_of_getElem? found, decide_eq_true ⟨holds, rfl⟩⟩
    rw [same] at inQueue
    omega
  · have twice : 2 ≤ held p t.args.delivery.copy :=
      two_le_countP at_j found distinct (decide_eq_true ⟨holds', same⟩)
        (decide_eq_true ⟨holds, rfl⟩)
    omega

/-! ## The invariant -/

/-- The attempts of a delivery count the failures of its handler, and what was dead-lettered
failed as often as the policy grants. -/
structure Budgeted (retry : RetryPolicy) (p : BrokerPool) : Prop where
  inQueue : ∀ topic, ∀ delivery ∈ p.shared.outside.broker.queue topic,
    delivery.attempt = copyFailures p delivery.copy + 1
  fresh : ∀ t ∈ p.tasks, Holds t → ¬ Failed t →
    t.args.delivery.attempt = copyFailures p t.args.delivery.copy + 1
  failed : ∀ t ∈ p.tasks, Holds t → Failed t →
    t.args.delivery.attempt = copyFailures p t.args.delivery.copy
  dead : ∀ dead ∈ p.shared.outside.deadLetters.messages,
    retry.budget ≤ failures p dead.message.messageId

theorem mem_deadLetters_of_serve
    (served : serve (inMemory retry) s choice op = some (s', reply)) {dead : DeadLetterMessage}
    (member : dead ∈ s'.outside.deadLetters.messages) :
    dead ∈ s.outside.deadLetters.messages ∨
      ∃ reason attempts, op = .deadLetter dead.message reason attempts := by
  cases op with
  | deadLetter message reason attempts =>
      cases served
      rcases List.mem_append.mp member with old | new
      · exact .inl old
      · rw [List.mem_singleton] at new
        subst new
        exact .inr ⟨reason, attempts, rfl⟩
  | _ =>
      cases served
      exact .inl member

theorem Budgeted.publish (budgeted : Budgeted retry p) (message : Message)
    (fresh : copyFailures p p.shared.outside.published.length = 0) :
    Budgeted retry { p with shared := { p.shared with outside := { p.shared.outside with
      broker := p.shared.outside.broker.publish message p.shared.outside.published.length
      published := p.shared.outside.published ++ [message] } } } := by
  refine ⟨fun topic delivery member => ?_, budgeted.fresh, budgeted.failed, budgeted.dead⟩
  rcases InMemoryMessageBroker.mem_queue_pushBack member with old | ⟨-, rfl⟩
  · exact budgeted.inQueue topic delivery old
  · change 1 = copyFailures p p.shared.outside.published.length + 1
    rw [fresh]

theorem Budgeted.next (budgeted : Budgeted retry p) {topic consumer : String}
    {broker : InMemoryMessageBroker} {delivery : Delivery}
    (taken : p.shared.outside.broker.next topic = (broker, some delivery)) :
    Budgeted retry (p.start body
      { p.shared with outside := { p.shared.outside with broker := broker } }
      [⟨consumer, delivery, some retry⟩]) := by
  refine ⟨fun other d member => ?_, fun t started holds unfailed => ?_,
    fun t started holds failed => ?_, budgeted.dead⟩
  · exact budgeted.inQueue other d (InMemoryMessageBroker.queue_next_subset taken other member)
  · rcases Pool.mem_start started with old | ⟨a, new, rfl⟩
    · exact budgeted.fresh t old holds unfailed
    · rw [List.mem_singleton] at new
      subst new
      exact budgeted.inQueue topic delivery (InMemoryMessageBroker.mem_queue_of_next taken)
  · rcases Pool.mem_start started with old | ⟨a, -, rfl⟩
    · exact budgeted.failed t old holds failed
    · obtain ⟨event, member, -⟩ := failed
      cases member

theorem Budgeted.step (budgeted : Budgeted retry p) (stock : Stock retry p)
    (before : (system (inMemory retry)).Reaches C (initial staleAfter epoch {}) p)
    (alone : ∀ event ∈ t.past, ¬ Contends event) (found : p.tasks[i]? = some t)
    (awaits : Awaits t.args t.past op)
    (served : serve (inMemory retry) p.shared choice op = some (s', reply))
    (rest : ConsumeM ProcessResult) :
    Budgeted retry (p.advance i t ⟨choice, op, reply⟩ s' rest) := by
  have started := List.mem_of_getElem? found
  have holds : Holds t := awaits.unsettled
  have bounded := (stock.inCall t started).2
  obtain ⟨notQueued, notHeld⟩ := stock.alone found holds
  have others : ∀ {copy}, copy ≠ t.args.delivery.copy →
      copyFailures (p.advance i t ⟨choice, op, reply⟩ s' rest) copy = copyFailures p copy := by
    intro copy distinct
    rw [copyFailures_advance, if_neg fun both => distinct both.2.symm, Nat.add_zero]
  have own : copyFailures (p.advance i t ⟨choice, op, reply⟩ s' rest) t.args.delivery.copy =
      copyFailures p t.args.delivery.copy + if Fails ⟨choice, op, reply⟩ then 1 else 0 := by
    rw [copyFailures_advance]
    simp only [and_true]
  -- a handler fails at most once in a call
  have once : Fails ⟨choice, op, reply⟩ → ¬ Failed t := by
    rintro fails ⟨event, member, failed⟩
    cases op with
    | handle delivery =>
        generalize t.past = past at awaits member
        cases awaits with
        | handles choice' decision runs =>
            rw [List.mem_singleton] at member
            subst member
            exact failed
    | _ => exact fails
  have inCall : ∀ u ∈ (p.advance i t ⟨choice, op, reply⟩ s' rest).tasks,
      (u ∈ p.tasks ∧ (Holds u → u.args.delivery.copy ≠ t.args.delivery.copy)) ∨
        u = ⟨t.args, ⟨choice, op, reply⟩ :: t.past, rest⟩ := by
    intro u member
    obtain ⟨j, at_j⟩ := List.mem_iff_getElem?.mp member
    rcases Pool.getElem?_advance found at_j with ⟨-, rfl⟩ | ⟨distinct, old⟩
    · exact .inr rfl
    · exact .inl ⟨List.mem_of_getElem? old, notHeld j u old distinct⟩
  refine ⟨fun topic delivery member => ?_, fun u member holds' unfailed => ?_,
    fun u member holds' failed => ?_, fun dead member => ?_⟩
  · rcases mem_queue_of_serve served member with old | ⟨returned, rfl, -, rfl⟩
    · rw [others (notQueued topic delivery old)]
      exact budgeted.inQueue topic delivery old
    · obtain ⟨rfl, failed⟩ := awaits.of_requeue bounded alone
      have quiet : ¬ Fails ⟨choice, .nack t.args.delivery true, reply⟩ := id
      change t.args.delivery.attempt + 1 = copyFailures _ t.args.delivery.copy + 1
      rw [own, if_neg quiet, Nat.add_zero, budgeted.failed t started holds failed]
  · rcases inCall u member with ⟨old, elsewhere⟩ | rfl
    · rw [others (elsewhere holds')]
      exact budgeted.fresh u old holds' unfailed
    · have quiet : ¬ Fails ⟨choice, op, reply⟩ := fun fails =>
        unfailed ⟨_, List.mem_cons_self, fails⟩
      rw [own, if_neg quiet]
      exact budgeted.fresh t started holds fun ⟨event, inPast, fails⟩ =>
        unfailed ⟨event, List.mem_cons_of_mem _ inPast, fails⟩
  · rcases inCall u member with ⟨old, elsewhere⟩ | rfl
    · rw [others (elsewhere holds')]
      exact budgeted.failed u old holds' failed
    · rw [own]
      by_cases fails : Fails ⟨choice, op, reply⟩
      · rw [if_pos fails]
        exact budgeted.fresh t started holds (once fails)
      · rw [if_neg fails]
        obtain ⟨event, inPast, failing⟩ := failed
        rcases List.mem_cons.mp inPast with rfl | earlier
        · exact (fails failing).elim
        · exact budgeted.failed t started holds ⟨event, earlier, failing⟩
  · refine le_trans ?_ (failures_le_advance _ _ _ _ _)
    rcases mem_deadLetters_of_serve served member with old | ⟨reason, attempts, rfl⟩
    · exact budgeted.dead dead old
    · obtain ⟨same, spent, failed⟩ :=
        awaits.of_deadLetter bounded (decided_of_reaches before t started)
      have attempt := budgeted.failed t started holds failed
      have first := copyFailures_pos before found failed
      have counted := copyFailures_le before (stock.inCall t started).1
      rw [same]
      unfold RetryPolicy.budget
      omega

/-- The retry budget counts handler failures only.  In every run of consumers of the in-memory
broker in which no delivery meets an unexpired claim, a message is on the dead-letter queue only
if its handler has failed at least `max(1, max_attempts)` times for it, and the attempts of a
queued delivery are one more than the failures of its handler. -/
theorem budget_of_reaches
    (reached : (system (inMemory retry)).Reaches NoContention (initial staleAfter epoch {}) p) :
    (∀ dead ∈ p.shared.outside.deadLetters.messages,
      max 1 retry.maxAttempts ≤ failures p dead.message.messageId) ∧
    ∀ topic, ∀ delivery ∈ p.shared.outside.broker.queue topic,
      delivery.attempt = copyFailures p delivery.copy + 1 := by
  have budgeted : Budgeted retry p := by
    refine reached.invariant ?_ fun {q r action} before budgeted _ stepped => ?_
    · exact ⟨fun topic delivery member => (by cases member), fun t started => (by cases started),
        fun t started => (by cases started), fun dead member => by cases member⟩
    · obtain ⟨arrival, shared, args, rfl, arrived, rfl⟩ |
        ⟨i, choice, t, op, next, shared, reply, rfl, found, rest, served, rfl⟩ :=
        System.step_cases stepped
      · obtain ⟨message, rfl, rfl⟩ | ⟨topic, consumer, broker, delivery, taken, rfl, rfl⟩ :=
          arrive_cases arrived
        · rw [Pool.start_nil]
          exact budgeted.publish message (copyFailures_fresh before)
        · exact budgeted.next taken
      · exact budgeted.step (stock_of_reaches before) before
          (not_contends_of_reaches before t (List.mem_of_getElem? found)) found
          (awaits_of_reaches before found rest).1 served _
  exact ⟨budgeted.dead, budgeted.inQueue⟩

end Budget

/-- Two attempts. -/
def twoAttempts : RetryPolicy := { maxAttempts := 2, backoff := .fixed 1000000000 }

/-- The handler fails for the only copy until it is dead-lettered. -/
def failsTwice : List (Action ConsumeChoice BrokerArrival) :=
  publishes 1 ++ [take, .step 0 {}, .step 0 { handled := .error "declined" }, .step 0 {},
    .step 0 {}, .step 0 {}, take, .step 1 {}, .step 1 { handled := .error "declined" }, .step 1 {},
    .step 1 {}, .step 1 {}]

theorem budget_failsTwice : ∃ p : BrokerPool,
    (system (inMemory twoAttempts)).Reaches NoContention (initial 10 0 {}) p ∧
    ∃ dead, p.shared.outside.deadLetters.messages = [dead] ∧ dead.attempts = 2 ∧
      2 ≤ failures p dead.message.messageId := by
  have run : (((system (inMemory twoAttempts)).exec (initial 10 0 {}) failsTwice).any fun p =>
      decide (p.shared.outside.deadLetters.messages.map (fun dead => dead.attempts) = [2])) = true := by
    decide +kernel
  obtain ⟨p, reached, found⟩ := System.exists_reaches_of_exec
    (C := NoContention) (by decide +kernel) run
  obtain ⟨dead, messages, attempts⟩ := List.map_eq_singleton_iff.mp (of_decide_eq_true found)
  have spent := (budget_of_reaches reached).1 dead (by rw [messages]; exact List.mem_cons_self)
  exact ⟨p, reached, dead, messages, attempts, spent⟩

/-- The second copy is sent back once while the first is being processed; when the lease has run
out it is taken over and fails. -/
def sentBack : List (Action ConsumeChoice BrokerArrival) :=
  publishes 2 ++ [take, .step 0 {}, take, .step 1 { read := 5, now := 5 }, .step 1 {}, take,
    .step 2 { read := 10, now := 10 }, .step 2 { handled := .error "declined" },
    .step 2 { now := 11 }, .step 2 {}, .step 2 {}]

/-- A message is dead-lettered after one handler failure, though the policy grants two. -/
theorem budget_overspent : ∃ p : BrokerPool,
    (system (inMemory twoAttempts)).Reaches System.Any (initial 10 0 {}) p ∧
    ∃ dead ∈ p.shared.outside.deadLetters.messages,
      failures p dead.message.messageId < max 1 twoAttempts.maxAttempts := by
  have run : (((system (inMemory twoAttempts)).exec (initial 10 0 {}) sentBack).any fun p =>
      decide (∃ dead ∈ p.shared.outside.deadLetters.messages,
        failures p dead.message.messageId < max 1 twoAttempts.maxAttempts)) = true := by
    decide +kernel
  obtain ⟨p, reached, found⟩ := System.exists_reaches_of_exec
    (C := System.Any) (System.along_any _ _ _) run
  exact ⟨p, reached, of_decide_eq_true found⟩

end Consumer

end Pharos

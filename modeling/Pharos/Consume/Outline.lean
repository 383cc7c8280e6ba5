import Pharos.Async.Outline
import Pharos.Consume.Process

/-!
# Proof outline of a process call

`Awaits a past op`: a call with arguments `a` that performed `past` awaits `op`.  It has
one constructor for each arrow of the flow in `consume.rs`, so what a call did before an
operation can be read off by cases.  Once `begin_processing` answered, the inbox has a
record for the call, whatever the others do (`outline_holds`).
-/

namespace Pharos

namespace Consumer

open Async

/-- The handler runs after these decisions. -/
def Runs (decision : IdempotencyDecision) : Prop :=
  decision = .startProcessing ∨ decision = .retryPreviousFailure

/-- A call that performed `past`, latest first, awaits `op`. -/
inductive Awaits (a : Call) : List ConsumeEvent → ConsumeOp → Prop where
  | begins : Awaits a [] (.beginProcessing a.messageId a.consumer)
  | duplicate (choice : ConsumeChoice) :
      Awaits a [⟨choice, .beginProcessing a.messageId a.consumer, .ok .alreadyCompleted⟩]
        (.ack a.delivery)
  | contention (choice : ConsumeChoice) :
      Awaits a [⟨choice, .beginProcessing a.messageId a.consumer, .ok .alreadyProcessing⟩]
        (.nack a.delivery true)
  | handles (choice : ConsumeChoice) (decision : IdempotencyDecision) (runs : Runs decision) :
      Awaits a [⟨choice, .beginProcessing a.messageId a.consumer, .ok decision⟩]
        (.handle a.delivery)
  | succeeds {past : List ConsumeEvent} (choice : ConsumeChoice)
      (before : Awaits a past (.handle a.delivery)) :
      Awaits a (⟨choice, .handle a.delivery, .ok ()⟩ :: past)
        (.markCompleted a.messageId a.consumer)
  | completes {past : List ConsumeEvent} (choice : ConsumeChoice)
      (before : Awaits a past (.markCompleted a.messageId a.consumer)) :
      Awaits a (⟨choice, .markCompleted a.messageId a.consumer, .ok ()⟩ :: past)
        (.ack a.delivery)
  | fails {past : List ConsumeEvent} (choice : ConsumeChoice) (error : String)
      (before : Awaits a past (.handle a.delivery)) :
      Awaits a (⟨choice, .handle a.delivery, .error error⟩ :: past)
        (.markFailed a.messageId a.consumer error)
  | requeues {past : List ConsumeEvent} (choice : ConsumeChoice) (error : String)
      (unbounded : a.retry = none)
      (before : Awaits a past (.markFailed a.messageId a.consumer error)) :
      Awaits a (⟨choice, .markFailed a.messageId a.consumer error, .ok ()⟩ :: past)
        (.nack a.delivery true)
  | decides {past : List ConsumeEvent} (choice : ConsumeChoice) (error : String)
      (retry : RetryPolicy) (policy : a.retry = some retry)
      (before : Awaits a past (.markFailed a.messageId a.consumer error)) :
      Awaits a (⟨choice, .markFailed a.messageId a.consumer error, .ok ()⟩ :: past)
        (.decide retry a.delivery.attempt)
  | retries {past : List ConsumeEvent} (choice : ConsumeChoice) (retry : RetryPolicy)
      (delay : Duration) (before : Awaits a past (.decide retry a.delivery.attempt)) :
      Awaits a (⟨choice, .decide retry a.delivery.attempt, .retryAfter delay⟩ :: past)
        (.nack a.delivery true)
  | givesUp {past : List ConsumeEvent} (choice : ConsumeChoice) (retry : RetryPolicy)
      (error : String) (before : Awaits a past (.decide retry a.delivery.attempt)) :
      Awaits a (⟨choice, .decide retry a.delivery.attempt, .deadLetter⟩ :: past)
        (.deadLetter a.delivery.message error a.delivery.attempt)
  | drops {past : List ConsumeEvent} (choice : ConsumeChoice) (error : String)
      (before : Awaits a past (.deadLetter a.delivery.message error a.delivery.attempt)) :
      Awaits a (⟨choice, .deadLetter a.delivery.message error a.delivery.attempt, .ok ()⟩ :: past)
        (.nack a.delivery false)

/-- The operation returns the delivery to the broker. -/
def Settles : ConsumeOp → Prop
  | .ack _ | .nack _ _ => True
  | _ => False

instance : DecidablePred Settles
  | .ack _ | .nack _ _ => .isTrue trivial
  | .beginProcessing _ _ | .handle _ | .markCompleted _ _ | .markFailed _ _ _ | .decide _ _
  | .deadLetter _ _ _ => .isFalse id

/-- The reply makes the call return early. -/
def Aborts : (op : ConsumeOp) → op.Reply → Prop
  | .beginProcessing _ _, .error _ => True
  | .markCompleted _ _, .error _ => True
  | .markFailed _ _ _, .error _ => True
  | .deadLetter _ _ _, .error _ => True
  | _, _ => False

/-- How a call ends: with its ack or nack, or with an error. -/
def Ended (a : Call) (past : List ConsumeEvent) : Prop :=
  ∃ choice op reply before, past = ⟨choice, op, reply⟩ :: before ∧ Awaits a before op ∧
    (Settles op ∨ Aborts op reply)

/-! ## What one operation does to the inbox -/

/-- A `mark_completed` that succeeded. -/
def Completes (id : Uuid) (consumer : String) : ConsumeEvent → Prop
  | ⟨_, .markCompleted id' consumer', .ok _⟩ => id' = id ∧ consumer' = consumer
  | _ => False

instance (id : Uuid) (consumer : String) : DecidablePred (Completes id consumer)
  | ⟨_, .markCompleted id' consumer', .ok _⟩ =>
      inferInstanceAs (Decidable (id' = id ∧ consumer' = consumer))
  | ⟨_, .markCompleted _ _, .error _⟩ | ⟨_, .beginProcessing _ _, _⟩ | ⟨_, .handle _, _⟩
  | ⟨_, .markFailed _ _ _, _⟩ | ⟨_, .decide _ _, _⟩ | ⟨_, .deadLetter _ _ _, _⟩ | ⟨_, .ack _, _⟩
  | ⟨_, .nack _ _, _⟩ => .isFalse False.elim

/-- The operation is one of the inbox. -/
def UsesInbox : ConsumeOp → Prop
  | .beginProcessing _ _ | .markCompleted _ _ | .markFailed _ _ _ => True
  | _ => False

/-- Everything an operation can do to the inbox, with its reply. -/
inductive InboxStep (inbox : InMemoryInboxStore) (choice : ConsumeChoice) :
    (op : ConsumeOp) → op.Reply → InMemoryInboxStore → Prop where
  | vacant {id : Uuid} {consumer : String} (absent : inbox.get id consumer = none) :
      InboxStep inbox choice (.beginProcessing id consumer) (.ok .startProcessing)
        (inbox.write id consumer (.processing id consumer choice.now))
  | leaseless {id : Uuid} {consumer source : String} {record : InboxMessage} (error : InboxError)
      (found : inbox.get id consumer = some record) (processing : record.status = .processing)
      (lease : fromStd inbox.staleAfter = .error source) :
      InboxStep inbox choice (.beginProcessing id consumer) (.error error) inbox
  | held {id : Uuid} {consumer : String} {record : InboxMessage}
      (found : inbox.get id consumer = some record) (processing : record.status = .processing)
      (leased : choice.read < record.updatedAt + inbox.staleAfter) :
      InboxStep inbox choice (.beginProcessing id consumer) (.ok .alreadyProcessing) inbox
  | takenOver {id : Uuid} {consumer : String} {record : InboxMessage}
      (found : inbox.get id consumer = some record) (processing : record.status = .processing)
      (stale : record.updatedAt + inbox.staleAfter ≤ choice.read) :
      InboxStep inbox choice (.beginProcessing id consumer) (.ok .startProcessing)
        (inbox.write id consumer { record with updatedAt := choice.now, lastError := none })
  | completed {id : Uuid} {consumer : String} {record : InboxMessage}
      (found : inbox.get id consumer = some record) (completed : record.status = .completed) :
      InboxStep inbox choice (.beginProcessing id consumer) (.ok .alreadyCompleted) inbox
  | failed {id : Uuid} {consumer : String} {record : InboxMessage}
      (found : inbox.get id consumer = some record) (failed : record.status = .failed) :
      InboxStep inbox choice (.beginProcessing id consumer) (.ok .retryPreviousFailure) inbox
  | marksCompleted {id : Uuid} {consumer : String} {record : InboxMessage}
      (found : inbox.get id consumer = some record) :
      InboxStep inbox choice (.markCompleted id consumer) (.ok ())
        (inbox.write id consumer (record.markCompleted choice.now))
  | completesNothing {id : Uuid} {consumer : String} (error : InboxError)
      (absent : inbox.get id consumer = none) :
      InboxStep inbox choice (.markCompleted id consumer) (.error error) inbox
  | marksFailed {id : Uuid} {consumer error : String} {record : InboxMessage}
      (found : inbox.get id consumer = some record) :
      InboxStep inbox choice (.markFailed id consumer error) (.ok ())
        (inbox.write id consumer (record.markFailed choice.now error))
  | failsNothing {id : Uuid} {consumer text : String} (error : InboxError)
      (absent : inbox.get id consumer = none) :
      InboxStep inbox choice (.markFailed id consumer text) (.error error) inbox
  | foreign {op : ConsumeOp} (reply : op.Reply) (other : ¬ UsesInbox op) :
      InboxStep inbox choice op reply inbox

/-- What an operation leaves of one record: it is as it was, or the operation wrote it. -/
theorem InboxStep.get {inbox inbox' : InMemoryInboxStore} {choice : ConsumeChoice}
    {op : ConsumeOp} {reply : op.Reply} (step : InboxStep inbox choice op reply inbox')
    (id : Uuid) (consumer : String) :
    inbox'.get id consumer = inbox.get id consumer ∨
    (inbox.get id consumer = none ∧
      inbox'.get id consumer = some (.processing id consumer choice.now)) ∨
    ∃ record, inbox.get id consumer = some record ∧
      ((record.status = .processing ∧ record.updatedAt + inbox.staleAfter ≤ choice.read ∧
          op = .beginProcessing id consumer ∧ inbox'.get id consumer =
            some { record with updatedAt := choice.now, lastError := none }) ∨
        (Completes id consumer ⟨choice, op, reply⟩ ∧
          inbox'.get id consumer = some (record.markCompleted choice.now)) ∨
        ∃ error, op = .markFailed id consumer error ∧
          inbox'.get id consumer = some (record.markFailed choice.now error)) := by
  cases step
  case vacant id' consumer' absent =>
      by_cases same : (id, consumer) = (id', consumer')
      · cases same
        exact .inr (.inl ⟨absent, InMemoryInboxStore.get_write_self⟩)
      · exact .inl (InMemoryInboxStore.get_write_of_ne same)
  case takenOver id' consumer' record found processing stale =>
      by_cases same : (id, consumer) = (id', consumer')
      · cases same
        exact .inr (.inr ⟨record, found, .inl ⟨processing, stale, rfl,
          InMemoryInboxStore.get_write_self⟩⟩)
      · exact .inl (InMemoryInboxStore.get_write_of_ne same)
  case marksCompleted id' consumer' record found =>
      by_cases same : (id, consumer) = (id', consumer')
      · cases same
        exact .inr (.inr ⟨record, found, .inr (.inl ⟨⟨rfl, rfl⟩,
          InMemoryInboxStore.get_write_self⟩)⟩)
      · exact .inl (InMemoryInboxStore.get_write_of_ne same)
  case marksFailed id' consumer' error record found =>
      by_cases same : (id, consumer) = (id', consumer')
      · cases same
        exact .inr (.inr ⟨record, found, .inr (.inr ⟨error, rfl,
          InMemoryInboxStore.get_write_self⟩)⟩)
      · exact .inl (InMemoryInboxStore.get_write_of_ne same)
  all_goals exact .inl rfl

theorem InboxStep.staleAfter_eq {inbox inbox' : InMemoryInboxStore} {choice : ConsumeChoice}
    {op : ConsumeOp} {reply : op.Reply} (step : InboxStep inbox choice op reply inbox') :
    inbox'.staleAfter = inbox.staleAfter := by
  cases step <;> rfl

section Serve

variable {β κ : Type} {adapters : Adapters β κ} {s s' : ConsumeShared β} {choice : ConsumeChoice}
  {op : ConsumeOp} {reply : op.Reply}

theorem serve_inbox (served : serve adapters s choice op = some (s', reply)) :
    InboxStep s.inbox choice op reply s'.inbox := by
  cases op with
  | beginProcessing id consumer =>
      simp only [serve, Option.some.injEq, Prod.mk.injEq] at served
      obtain ⟨same, answer⟩ := served
      have begins : s.inbox.beginProcessing id consumer choice.read choice.now =
          (s'.inbox, reply) := Prod.ext (congrArg ConsumeShared.inbox same) answer
      rcases InMemoryInboxStore.begins_cases begins with ⟨absent, rfl, inbox⟩ |
        ⟨record, found, ⟨processing, ⟨source, lease⟩, inbox, error, rfl⟩ |
          ⟨processing, leased, inbox, rfl⟩ | ⟨processing, stale, inbox, rfl⟩ |
          ⟨completed, inbox, rfl⟩ | ⟨failed, inbox, rfl⟩⟩
      all_goals rw [inbox]
      · exact .vacant absent
      · exact .leaseless error found processing lease
      · exact .held found processing leased
      · exact .takenOver found processing stale
      · exact .completed found completed
      · exact .failed found failed
  | markCompleted id consumer =>
      simp only [serve, Option.some.injEq, Prod.mk.injEq] at served
      obtain ⟨same, answer⟩ := served
      have marks : s.inbox.update id consumer (·.markCompleted choice.now) = (s'.inbox, reply) :=
        Prod.ext (congrArg ConsumeShared.inbox same) answer
      rcases InMemoryInboxStore.update_cases marks with ⟨absent, inbox, rfl⟩ |
        ⟨record, found, inbox, rfl⟩
      all_goals rw [inbox]
      · exact .completesNothing _ absent
      · exact .marksCompleted found
  | markFailed id consumer error =>
      simp only [serve, Option.some.injEq, Prod.mk.injEq] at served
      obtain ⟨same, answer⟩ := served
      have marks : s.inbox.update id consumer (·.markFailed choice.now error) =
          (s'.inbox, reply) := Prod.ext (congrArg ConsumeShared.inbox same) answer
      rcases InMemoryInboxStore.update_cases marks with ⟨absent, inbox, rfl⟩ |
        ⟨record, found, inbox, rfl⟩
      all_goals rw [inbox]
      · exact .failsNothing _ absent
      · exact .marksFailed found
  | _ =>
      cases served
      exact .foreign _ id

theorem le_clock_of_serve (served : serve adapters s choice op = some (s', reply)) :
    s.clock ≤ s'.clock := by
  cases op with
  | beginProcessing id consumer =>
      cases served
      exact le_max_left _ _
  | markCompleted id consumer =>
      cases served
      exact le_max_left _ _
  | markFailed id consumer error =>
      cases served
      exact le_max_left _ _
  | _ =>
      cases served
      exact le_rfl

theorem clock_of_begins {id : Uuid} {consumer : String}
    {reply : Except InboxError IdempotencyDecision}
    (served : serve adapters s choice (.beginProcessing id consumer) = some (s', reply)) :
    s'.clock = max s.clock (max choice.read choice.now) := by
  cases served
  rfl

end Serve

/-! ## The outline -/

section Outline

variable {β κ : Type} {adapters : Adapters β κ} {s s' : ConsumeShared β} {a : Call}
  {past : List ConsumeEvent}

/-- The inbox has a record for the call. -/
def Recorded (s : ConsumeShared β) (a : Call) : Prop :=
  s.inbox.get a.messageId a.consumer ≠ none

/-- No record of the inbox vanishes. -/
def Retains (s s' : ConsumeShared β) : Prop :=
  ∀ id consumer, s.inbox.get id consumer ≠ none → s'.inbox.get id consumer ≠ none

def outline (β : Type) : Outline consumeSignature (ConsumeShared β) ConsumeChoice Call where
  inv _ := True
  rely _ s s' := Retains s s'
  allowed _ := True
  pre a past s op := Awaits a past op ∧ (past ≠ [] → Recorded s a)

theorem retains_of_eq (inbox : s'.inbox = s.inbox) : Retains s s' := by
  intro id name present
  rw [inbox]
  exact present

theorem serve_retains {choice : ConsumeChoice} {op : ConsumeOp} {reply : op.Reply}
    (served : serve adapters s choice op = some (s', reply)) : Retains s s' := by
  intro id consumer present
  rcases (serve_inbox served).get id consumer with same | ⟨absent, -⟩ |
    ⟨record, -, ⟨-, -, -, written⟩ | ⟨-, written⟩ | ⟨error, -, written⟩⟩
  · rw [same]
    exact present
  · exact (present absent).elim
  all_goals
    rw [written]
    exact Option.some_ne_none _

/-- A call keeps to the outline and ends as `Ended` says. -/
abbrev Keeps (adapters : Adapters β κ) (a : Call) (program : ConsumeM ProcessResult)
    (past : List ConsumeEvent) (s : ConsumeShared β) : Prop :=
  Safe (serve adapters) (outline β) a (fun past' _ _ => Ended a past') program past s

/-- One operation of a call that has a record. -/
theorem keeps_op {op : ConsumeOp} {next : op.Reply → ConsumeM ProcessResult}
    (awaits : Awaits a past op) (recorded : Recorded s a)
    (rest : ∀ choice reply s', Recorded s' a →
      Keeps adapters a (next reply) (⟨choice, op, reply⟩ :: past) s') :
    Keeps adapters a (await op >>= next) past s := by
  refine Safe.call (fun s' _ moved => ⟨awaits, fun _ => moved _ _ recorded⟩) ?_
  intro s' choice s'' reply _ moved _ served
  exact rest choice reply s'' (serve_retains served _ _ (moved _ _ recorded))

theorem keeps_ackThen {result : ProcessResult} (awaits : Awaits a past (.ack a.delivery))
    (recorded : Recorded s a) : Keeps adapters a (ackThen a.delivery result) past s := by
  refine keeps_op awaits recorded fun choice reply s' _ => ?_
  cases reply with
  | ok _ => exact ⟨choice, _, _, past, rfl, awaits, .inl trivial⟩
  | error error => exact ⟨choice, _, _, past, rfl, awaits, .inl trivial⟩

theorem keeps_nackThen {requeue : Bool} {result : ProcessResult}
    (awaits : Awaits a past (.nack a.delivery requeue)) (recorded : Recorded s a) :
    Keeps adapters a (nackThen a.delivery requeue result) past s := by
  refine keeps_op awaits recorded fun choice reply s' _ => ?_
  cases reply with
  | ok _ => exact ⟨choice, _, _, past, rfl, awaits, .inl trivial⟩
  | error error => exact ⟨choice, _, _, past, rfl, awaits, .inl trivial⟩

/-- From the handler on. -/
theorem keeps_handleThen {failed : String → ConsumeM ProcessResult}
    (awaits : Awaits a past (.handle a.delivery)) (recorded : Recorded s a)
    (after : ∀ {past s} choice error, Awaits a past (.markFailed a.messageId a.consumer error) →
      Recorded s a → Keeps adapters a (failed error)
        (⟨choice, .markFailed a.messageId a.consumer error, .ok ()⟩ :: past) s) :
    Keeps adapters a (handleThen a.consumer a.delivery failed) past s := by
  refine keeps_op awaits recorded fun choice reply s' recorded => ?_
  cases reply with
  | ok _ =>
      have next := Awaits.succeeds choice awaits
      refine keeps_op next recorded fun choice' reply' s'' recorded => ?_
      cases reply' with
      | error error => exact ⟨choice', _, _, _, rfl, next, .inr trivial⟩
      | ok _ => exact keeps_ackThen (.completes choice' next) recorded
  | error error =>
      have next := Awaits.fails choice error awaits
      refine keeps_op next recorded fun choice' reply' s'' recorded => ?_
      cases reply' with
      | error markError => exact ⟨choice', _, _, _, rfl, next, .inr trivial⟩
      | ok _ => exact after choice' error next recorded

/-- After an answer of `begin_processing` there is a record. -/
theorem recorded_of_begins {choice : ConsumeChoice} {decision : IdempotencyDecision}
    (served : serve adapters s choice (.beginProcessing a.messageId a.consumer) =
      some (s', .ok decision)) : Recorded s' a := by
  have step := serve_inbox served
  unfold Recorded
  generalize s'.inbox = inbox' at step
  cases step with
  | vacant absent =>
      rw [InMemoryInboxStore.get_write_self]
      exact Option.some_ne_none _
  | takenOver found processing stale =>
      rw [InMemoryInboxStore.get_write_self]
      exact Option.some_ne_none _
  | held found processing leased =>
      rw [found]
      exact Option.some_ne_none _
  | completed found completed =>
      rw [found]
      exact Option.some_ne_none _
  | failed found failed =>
      rw [found]
      exact Option.some_ne_none _
  | foreign _ other => exact (other trivial).elim

theorem keeps_processThen {failed : String → ConsumeM ProcessResult}
    (after : ∀ {past s} choice error, Awaits a past (.markFailed a.messageId a.consumer error) →
      Recorded s a → Keeps adapters a (failed error)
        (⟨choice, .markFailed a.messageId a.consumer error, .ok ()⟩ :: past) s) :
    Keeps adapters a (processThen a.consumer a.delivery failed) [] s := by
  refine Safe.call (fun _ _ _ => ⟨.begins, fun nonempty => (nonempty rfl).elim⟩) ?_
  intro s' choice s'' reply _ _ _ served
  cases reply with
  | error error => exact ⟨choice, _, _, [], rfl, .begins, .inr trivial⟩
  | ok decision =>
      have recorded := recorded_of_begins served
      cases decision with
      | alreadyCompleted => exact keeps_ackThen (.duplicate choice) recorded
      | alreadyProcessing => exact keeps_nackThen (.contention choice) recorded
      | startProcessing => exact keeps_handleThen (.handles choice _ (.inl rfl)) recorded after
      | retryPreviousFailure => exact keeps_handleThen (.handles choice _ (.inr rfl)) recorded after

theorem body_keeps (a : Call) (s : ConsumeShared β) : Keeps adapters a (body a) [] s := by
  unfold body
  split
  · next unbounded =>
    exact keeps_processThen fun choice error awaits recorded =>
      keeps_nackThen (.requeues choice error unbounded awaits) recorded
  · next retry policy =>
    refine keeps_processThen fun choice error awaits recorded => ?_
    have next := Awaits.decides choice error retry policy awaits
    refine keeps_op next recorded fun choice' decision s' recorded => ?_
    cases decision with
    | retryAfter delay => exact keeps_nackThen (.retries choice' retry delay next) recorded
    | deadLetter =>
        have last := Awaits.givesUp choice' retry error next
        refine keeps_op last recorded fun choice'' reply s'' recorded => ?_
        cases reply with
        | error source => exact ⟨choice'', _, _, _, rfl, last, .inr trivial⟩
        | ok _ => exact keeps_nackThen (.drops choice'' error last) recorded

end Outline

/-! ## Reachable states -/

section Reachable

variable {β κ : Type} {adapters : Adapters β κ}
  {C : ConsumePool β → Action ConsumeChoice κ → Prop} {staleAfter : Duration} {epoch : Time}
  {outside : β} {p : ConsumePool β} {i : ℕ} {t : ConsumeTask}

theorem outline_uniform : (outline β).Uniform (system adapters) fun a past _ _ => Ended a past where
  refl _ _ _ _ present := present
  trans moved moved' _ _ present := moved' _ _ (moved _ _ present)
  serve _ _ _ served := ⟨trivial, fun _ => serve_retains served⟩
  arrive _ arrived := by
    obtain ⟨out, -, same⟩ := Option.map_eq_some_iff.mp arrived
    cases same
    exact ⟨trivial, fun _ => retains_of_eq rfl, fun a _ => body_keeps a _⟩

/-- Every call keeps to its outline in every run. -/
theorem outline_holds (reached : (system adapters).Reaches C (initial staleAfter epoch outside) p) :
    (outline β).Holds (system adapters) (fun a past _ _ => Ended a past) p := by
  refine outline_uniform.holds ⟨trivial, fun _ _ found => by cases found⟩
    (reached.mono fun _ action _ => ?_)
  cases action with
  | arrive _ => trivial
  | step _ _ => trivial

/-- What a call did when it awaits an operation. -/
theorem awaits_of_reaches
    (reached : (system adapters).Reaches C (initial staleAfter epoch outside) p)
    (found : p.tasks[i]? = some t) {op : ConsumeOp} {next : op.Reply → ConsumeM ProcessResult}
    (awaits : t.rest = .await op next) :
    Awaits t.args t.past op ∧ (t.past ≠ [] → Recorded p.shared t.args) :=
  (outline_holds reached).pre found awaits

theorem ended_of_reaches
    (reached : (system adapters).Reaches C (initial staleAfter epoch outside) p)
    (found : p.tasks[i]? = some t) (finished : t.Finished) : Ended t.args t.past := by
  cases rest : t.rest with
  | ret value =>
      obtain ⟨s, -, ended⟩ := (outline_holds reached).post_of_ret found rest
      exact ended
  | await op next =>
      rw [Task.Finished, rest] at finished
      exact finished.elim

end Reachable

end Consumer

end Pharos

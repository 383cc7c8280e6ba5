import Pharos.Async.Joint
import Pharos.Outbox.Relay
import Pharos.Saga.Commands

/-!
# Delivering saga commands

`DurableCommandPublisher` of `pharos-saga/src/lib.rs`: an outbox dispatcher over it drains the
outbox that a `SagaRunner` writes to, decodes every message back into a command and hands it to a
`CommandDispatcher`.

Here a runner and such a dispatcher work on one outbox, in any interleaving of their calls, lanes
and clocks.  The runner only ever inserts, so of the outbox its side keeps the log of its inserts;
the rows themselves are the dispatcher's.  A successful insert of the runner is the arrival of the
row in the repository.
-/

namespace Pharos

open Async

/-- What a `DurableCommandPublisher` awaits: `CommandDispatcher::dispatch`. -/
inductive CommandOp (C : Type) where
  | dispatch (command : C)

abbrev commandSignature (C : Type) : Signature where
  Op := CommandOp C
  Reply _ := Except String Unit

/-- `DurableCommandPublisher`; its dispatcher is known by what it is given and answers. -/
structure DurableCommandPublisher (C : Type) where
  decode : List UInt8 → Except String C

namespace DurableCommandPublisher

variable {C : Type} (publisher : DurableCommandPublisher C)

/-- `MessagePublisher::publish`. -/
def publish (message : Message) : Program (commandSignature C) (Except MessagingError Unit) := do
  match publisher.decode message.payload with
  | .error error => pure (.error (.publish error))
  | .ok command =>
    match ← Program.call (S := commandSignature C) (CommandOp.dispatch command) with
    | .error error => pure (.error (.publish error))
    | .ok () => pure (.ok ())

/-- A dispatcher that is given a command and answers `reply`. -/
def answering (reply : Except String Unit) (given : List C) :
    CommandOp C → List C × Except String Unit
  | .dispatch command => (given ++ [command], reply)

/-- One `publish` under a dispatcher that answers `reply`: what it was given, and the outcome. -/
def called (message : Message) (reply : Except String Unit) :
    List C × Except MessagingError Unit :=
  (publisher.publish message).eval (answering reply) []

/-- The outcome is one that some answer of the dispatcher leads to. -/
def Answers (message : Message) (outcome : Except MessagingError Unit) : Prop :=
  ∃ reply, (publisher.called message reply).2 = outcome

variable {publisher} {message : Message} {outcome : Except MessagingError Unit}

theorem called_of_decode {command : C} (decoded : publisher.decode message.payload = .ok command)
    (reply : Except String Unit) :
    publisher.called message reply = ([command], reply.mapError .publish) := by
  unfold called publish
  rw [decoded]
  cases reply <;> rfl

theorem called_of_error {error : String} (failed : publisher.decode message.payload = .error error)
    (reply : Except String Unit) :
    publisher.called message reply = ([], .error (.publish error)) := by
  unfold called publish
  rw [failed]
  rfl

/-- What can come of a `publish`. -/
def possible (publisher : DurableCommandPublisher C) (message : Message)
    (outcome : Except MessagingError Unit) : Bool :=
  match publisher.decode message.payload with
  | .error error => decide (outcome = .error (.publish error))
  | .ok _ =>
      match outcome with
      | .ok () | .error (.publish _) => true
      | .error _ => false

theorem possible_iff : publisher.possible message outcome = true ↔
    publisher.Answers message outcome := by
  unfold Answers possible
  cases decoded : publisher.decode message.payload with
  | error error =>
      simp only [called_of_error decoded, exists_const, decide_eq_true_eq]
      exact eq_comm
  | ok command =>
      simp only [called_of_decode decoded]
      constructor
      · intro holds
        match outcome, holds with
        | .ok (), _ => exact ⟨.ok (), rfl⟩
        | .error (.publish error), _ => exact ⟨.error error, rfl⟩
      · rintro ⟨reply, rfl⟩
        cases reply <;> rfl

instance : Decidable (publisher.Answers message outcome) :=
  decidable_of_iff _ possible_iff

/-- A success is a command that was decoded and accepted. -/
theorem Answers.decoded (answers : publisher.Answers message (.ok ())) :
    ∃ command, publisher.decode message.payload = .ok command := by
  obtain ⟨reply, outcome⟩ := answers
  cases decoded : publisher.decode message.payload with
  | error error =>
      rw [called_of_error decoded] at outcome
      cases outcome
  | ok command => exact ⟨command, rfl⟩

/-- A durable publisher never reports a message as poisoned. -/
theorem Answers.not_poison (answers : publisher.Answers message outcome) :
    ¬ OutboxDispatcher.IsPoison outcome := by
  obtain ⟨reply, rfl⟩ := answers
  cases decoded : publisher.decode message.payload with
  | error error =>
      rw [called_of_error decoded]
      exact nofun
  | ok command =>
      rw [called_of_decode decoded]
      cases reply <;> exact nofun

end DurableCommandPublisher

namespace SagaRunner

variable {I St E C ε : Type}

/-! ## What a runner inserts -/

/-- An inserted record is as `OutboxMessage::new` makes it. -/
def InsertsNew : SagaOp I St E → Prop
  | .insert message => message.status = .pending ∧ message.attempts = 0
  | _ => True

theorem only_newMessages (messages : List Message) :
    (newMessages messages : RunnerM I St E C ε _).Only InsertsNew := by
  induction messages with
  | nil => trivial
  | cons message messages ih =>
      exact Program.Only.call trivial fun now => Program.Only.call trivial fun id =>
        Program.Only.bind ih fun rest => trivial

theorem returns_newMessages (messages : List Message) :
    (newMessages messages : RunnerM I St E C ε _).Returns
      fun made => ∀ m ∈ made, m.status = .pending ∧ m.attempts = 0 := by
  induction messages with
  | nil => exact fun m member => by cases member
  | cons message messages ih =>
      intro now id
      show (newMessages messages >>= fun rest => pure (OutboxMessage.new id now message :: rest) :
        RunnerM I St E C ε (List OutboxMessage)).Returns _
      refine Program.Returns.bind ih fun rest known m member => ?_
      rcases List.mem_cons.mp member with rfl | later
      · exact ⟨rfl, rfl⟩
      · exact known m later

theorem only_insertMany {messages : List OutboxMessage}
    (known : ∀ m ∈ messages, m.status = .pending ∧ m.attempts = 0) :
    (insertMany messages : RunnerM I St E C ε _).Only InsertsNew := by
  induction messages with
  | nil => trivial
  | cons message messages ih =>
      refine Program.Only.call (known message List.mem_cons_self) fun reply => ?_
      cases reply with
      | error error => trivial
      | ok _ => exact ih fun m member => known m (List.mem_cons_of_mem _ member)

variable (runner : SagaRunner I St E C ε)

theorem only_enqueueAll (commands : List C) : (runner.enqueueAll commands).Only InsertsNew := by
  cases commands with
  | nil => trivial
  | cons command commands =>
      refine Program.Only.bind_of_returns (only_newMessages _) (returns_newMessages _)
        fun messages known => ?_
      refine Program.Only.bind (only_insertMany known) fun result => ?_
      cases result <;> trivial

theorem only_saveThen (inst : SagaInstance I St) {next : RunnerM I St E C ε (RunnerResult ε Unit)}
    (rest : next.Only InsertsNew) : (saveThen inst next).Only InsertsNew := by
  refine Program.Only.call trivial fun reply => ?_
  cases reply with
  | error error => trivial
  | ok _ => exact rest

theorem only_compensate (reason : String) (commands : List C) :
    (runner.compensate reason commands).Only InsertsNew := by
  refine Program.Only.bind (runner.only_enqueueAll commands) fun result => ?_
  cases result <;> trivial

theorem only_currentOrRunning (id : I) (current : Option (SagaInstance I St)) (state : St) :
    (currentOrRunning id current state : RunnerM I St E C ε _).Only InsertsNew := by
  cases current with
  | none => exact Program.Only.call trivial fun now => trivial
  | some inst => trivial

theorem only_applyTransition (id : I) (current : Option (SagaInstance I St))
    (transition : SagaTransition St C) :
    (runner.applyTransition id current transition).Only InsertsNew := by
  cases transition with
  | ignore => trivial
  | start state commands deadline =>
      exact Program.Only.call trivial fun now => only_saveThen _ (runner.only_enqueueAll commands)
  | advance state commands deadline =>
      exact Program.Only.bind (only_currentOrRunning id current state) fun inst =>
        Program.Only.call trivial fun now => only_saveThen _ (runner.only_enqueueAll commands)
  | complete state commands =>
      exact Program.Only.bind (only_currentOrRunning id current state) fun inst =>
        Program.Only.call trivial fun now => only_saveThen _ (runner.only_enqueueAll commands)
  | fail reason commands =>
      cases current with
      | none => exact runner.only_compensate reason commands
      | some inst =>
          exact Program.Only.call trivial fun now =>
            only_saveThen _ (runner.only_compensate reason commands)

theorem only_handleAttempts (id : I) (event : E) (retries : ℕ)
    (lastConflict : Option (ℕ × Option ℕ)) :
    (runner.handleAttempts id event retries lastConflict).Only InsertsNew := by
  induction retries generalizing lastConflict with
  | zero => trivial
  | succ retries ih =>
      refine Program.Only.call trivial fun loaded => ?_
      cases loaded with
      | error error => trivial
      | ok current =>
          refine Program.Only.call trivial fun reacted => ?_
          cases reacted with
          | error error => trivial
          | ok transition =>
              simp only
              split
              · trivial
              · split
                · trivial
                · refine Program.Only.bind (runner.only_applyTransition id current transition)
                    fun result => ?_
                  split
                  · trivial
                  · exact ih _
                  · trivial

theorem only_fireTimeouts (due : List (SagaInstance I St)) (processed : ℕ) :
    (runner.fireTimeouts due processed).Only InsertsNew := by
  induction due generalizing processed with
  | nil => trivial
  | cons inst due ih =>
      refine Program.Only.call trivial fun answered => ?_
      cases answered with
      | error error => trivial
      | ok transition =>
          simp only
          split
          · refine Program.Only.call trivial fun now => Program.Only.call trivial fun saved => ?_
            cases saved with
            | error error => trivial
            | ok _ => exact ih _
          · refine Program.Only.bind
              (runner.only_applyTransition inst.id (some inst) transition) fun result => ?_
            split
            · exact ih _
            · exact ih _
            · trivial

/-- Whatever a runner is called for, it inserts new records only. -/
theorem only_body (call : SagaCall E) : (runner.body call).Only InsertsNew := by
  cases call with
  | handle event =>
      refine Program.Only.bind ?_ fun result => trivial
      unfold handle
      split
      · trivial
      · exact runner.only_handleAttempts _ event _ _
  | runDueTimeouts now lease limit =>
      refine Program.Only.bind ?_ fun result => trivial
      refine Program.Only.call trivial fun claimed => ?_
      cases claimed with
      | error error => trivial
      | ok due => exact runner.only_fireTimeouts due 0

/-! ## A runner and a dispatcher on one outbox -/

/-- The row a runner's operation adds to the outbox. -/
def insertedRow : SagaEvent I St E C ε → Option OutboxMessage
  | ⟨_, .insert message, .ok ()⟩ => some message
  | _ => none

theorem insertedRow_eq_some {choice : SagaChoice I} {op : SagaOp I St E} {reply : op.Reply C ε}
    {message : OutboxMessage}
    (inserts : insertedRow (⟨choice, op, reply⟩ : SagaEvent I St E C ε) = some message) :
    op = .insert message := by
  unfold insertedRow at inserts
  split at inserts
  · next same =>
    cases inserts
    cases same
    rfl
  · cases inserts

/-- What a call commits to are messages of commands. -/
theorem exists_command {past : List (SagaEvent I St E C ε)} {message : Message}
    (committed : message ∈ runner.committed past) :
    ∃ command, runner.mapCommand command = message := by
  induction past with
  | nil => cases committed
  | cons event past ih =>
      rw [committed_cons] at committed
      rcases List.mem_append.mp committed with old | new
      · exact ih old
      · unfold batch at new
        split at new
        · obtain ⟨command, -, same⟩ := List.mem_map.mp new
          exact ⟨command, same⟩
        · obtain ⟨command, -, same⟩ := List.mem_map.mp new
          exact ⟨command, same⟩
        · cases new

variable [DecidableEq I]

/-- The runner's calls and the lanes of the dispatcher that drains its outbox. -/
def relay (config : DispatchConfig) :
    Joint (sagaSignature I St E C ε) (SagaShared I St) (SagaChoice I) (SagaCall E) (SagaCall E)
      (SagaReturn ε) dispatchSignature OutboxShared DispatchChoice OutboxArrival DispatchLane
      Unit where
  left := runner.system
  right := OutboxDispatcher.system config
  hands event := (insertedRow event).map .insert

abbrev RelayPools (I St E C ε : Type) :=
  Joint.Pools (sagaSignature I St E C ε) (SagaShared I St) (SagaChoice I) (SagaCall E)
    (SagaReturn ε) dispatchSignature OutboxShared DispatchChoice DispatchLane Unit

/-- The record the operation inserts is not stored yet: `Uuid::now_v7` draws no id twice. -/
def InsertsFresh (repo : InMemoryOutboxRepository) : Option (SagaOp I St E) → Prop
  | some (.insert message) => repo.get message.id = none
  | _ => True

instance (repo : InMemoryOutboxRepository) :
    DecidablePred (@InsertsFresh I St E repo)
  | some (.insert message) => inferInstanceAs (Decidable (repo.get message.id = none))
  | none | some (.load _) | some (.react _ _) | some (.onTimeout _) | some .utcNow
  | some .nowV7 | some (.save _) | some (.claimDue _ _ _) => .isTrue trivial

/-- What a publish call returns is what the durable publisher returns. -/
def Answered (publisher : DurableCommandPublisher C) (published : Except MessagingError Unit) :
    Option DispatchOp → Prop
  | some (.publish record) => publisher.Answers record.message published
  | _ => True

instance (publisher : DurableCommandPublisher C) (published : Except MessagingError Unit) :
    DecidablePred (Answered publisher published)
  | some (.publish record) =>
      inferInstanceAs (Decidable (publisher.Answers record.message published))
  | none | some (.recordAttempt _) | some (.markPublished _) | some (.decideFor _ _)
  | some (.markFailed _ _) | some (.scheduleRetry _ _) | some (.yield _ _) => .isTrue trivial

/-- The outbox accepts every insert, under an id that is not taken; nobody else inserts; and one
dispatcher over the durable publisher drains it. -/
def Relaying (publisher : DurableCommandPublisher C) (config : DispatchConfig)
    (c : RelayPools I St E C ε) :
    Action (SagaChoice I) (SagaCall E) ⊕ Action DispatchChoice OutboxArrival → Prop
  | .inl (.arrive _) => True
  | .inl (.step i choice) =>
      choice.outboxError = none ∧ InsertsFresh c.2.shared.repo (c.1.awaits i)
  | .inr (.arrive (.insert _)) => False
  | .inr (.arrive (.dispatch limit now order)) =>
      OutboxDispatcher.Single config c.2 (.arrive (.dispatch limit now order))
  | .inr (.arrive .nextLane) => OutboxDispatcher.Single config c.2 (.arrive .nextLane)
  | .inr (.step i choice) => Answered publisher choice.published (c.2.awaits i)

instance (publisher : DurableCommandPublisher C) (config : DispatchConfig)
    (c : RelayPools I St E C ε) : DecidablePred (Relaying publisher config c)
  | .inl (.arrive _) => .isTrue trivial
  | .inl (.step i choice) =>
      inferInstanceAs (Decidable (choice.outboxError = none ∧
        InsertsFresh c.2.shared.repo (c.1.awaits i)))
  | .inr (.arrive (.insert _)) => .isFalse id
  | .inr (.arrive (.dispatch limit now order)) =>
      inferInstanceAs (Decidable
        (OutboxDispatcher.Single config c.2 (.arrive (.dispatch limit now order))))
  | .inr (.arrive .nextLane) =>
      inferInstanceAs (Decidable (OutboxDispatcher.Single config c.2 (.arrive .nextLane)))
  | .inr (.step i choice) =>
      inferInstanceAs (Decidable (Answered publisher choice.published (c.2.awaits i)))

omit [DecidableEq I] in
/-- A step of the dispatcher is one of a delivering dispatcher, and no insert. -/
theorem Relaying.delivers {publisher : DurableCommandPublisher C} {config : DispatchConfig}
    {c : RelayPools I St E C ε} {action : Action DispatchChoice OutboxArrival}
    (side : Relaying publisher config c (.inr action)) :
    OutboxDispatcher.Delivering config c.2 action ∧
      ∀ message, action ≠ .arrive (.insert message) := by
  cases action with
  | step i choice => exact ⟨⟨trivial, trivial⟩, fun _ inserts => by cases inserts⟩
  | arrive arrival =>
      cases arrival with
      | insert message => exact side.elim
      | dispatch limit now order => exact ⟨⟨side, trivial⟩, fun _ inserts => by cases inserts⟩
      | nextLane => exact ⟨⟨side, trivial⟩, fun _ inserts => by cases inserts⟩

/-- Nothing has happened yet. -/
def relayInitial (claimLease : ChronoDuration) : RelayPools I St E C ε :=
  (initial, OutboxDispatcher.initial claimLease)

/-- The log grows by the row that is handed over. -/
theorem serve_log {s s' : SagaShared I St} {choice : SagaChoice I} {op : SagaOp I St E}
    {reply : op.Reply C ε} (served : runner.serve s choice op = some (s', reply)) :
    s'.outbox = s.outbox ++
      (insertedRow (⟨choice, op, reply⟩ : SagaEvent I St E C ε)).toList := by
  cases op with
  | claimDue now lease limit =>
      simp only [serve] at served
      split at served <;> cases served
      simp [insertedRow]
  | insert message =>
      simp only [serve] at served
      split at served <;> cases served <;> simp [insertedRow]
  | load _ | react _ _ | onTimeout _ | utcNow | nowV7 | save _ =>
      cases served
      simp [insertedRow]

section Runs

variable {runner} {publisher : DurableCommandPublisher C} {config : DispatchConfig}
  {claimLease : ChronoDuration} {c : RelayPools I St E C ε}
  (reached : (runner.relay config).Reaches (Relaying publisher config) (relayInitial claimLease) c)

include reached

theorem runner_reaches : runner.system.Reaches Accepts initial c.1 := by
  refine Joint.Reaches.left reached fun {e action} side => ?_
  cases action with
  | arrive call => trivial
  | step i choice => exact side.1

theorem dispatcher_reaches : (OutboxDispatcher.system config).Reaches
    (OutboxDispatcher.Delivering config) (OutboxDispatcher.initial claimLease) c.2 := by
  refine Joint.Reaches.right reached (fun _ side => side.delivers.1) ?_
  intro e i choice t op next shared reply arrival before side found awaits served hands
  obtain ⟨message, inserts, rfl⟩ := Option.map_eq_some_iff.mp hands
  cases insertedRow_eq_some inserts
  have fresh := side.2
  rw [Pool.awaits_eq found awaits] at fresh
  exact ⟨fresh, (runner_reaches before).only_op rfl runner.only_body found awaits⟩

/-- The log is the rows, up to order. -/
theorem log_perm_rows : (c.1.shared.outbox.map OutboxMessage.message).Perm
    ((OutboxDispatcher.rows c.2.shared).map OutboxMessage.message) := by
  refine reached.invariant (P := fun c => (c.1.shared.outbox.map OutboxMessage.message).Perm
    ((OutboxDispatcher.rows c.2.shared).map OutboxMessage.message)) .nil ?_
  intro d e action before perm side stepped
  obtain ⟨arrival, shared, args, rfl, arrived, rfl⟩ |
    ⟨i, choice, t, op, next, shared, reply, rfl, found, awaits, served, ⟨silent, rfl⟩ |
      ⟨arrival, q, hands, moved, rfl⟩⟩ | ⟨action, q, rfl, moved, rfl⟩ := Joint.step_cases stepped
  · cases arrived
    exact perm
  · have log := serve_log runner served
    rw [Option.map_eq_none_iff.mp silent, Option.toList_none, List.append_nil] at log
    rw [Pool.advance_shared, log]
    exact perm
  · obtain ⟨message, inserts, rfl⟩ := Option.map_eq_some_iff.mp hands
    have log := serve_log runner served
    rw [inserts, Option.toList_some] at log
    cases insertedRow_eq_some inserts
    have fresh := side.2
    rw [Pool.awaits_eq found awaits] at fresh
    cases moved.symm.trans (OutboxDispatcher.step_insert d.2 message)
    rw [Pool.advance_shared, log, OutboxDispatcher.rows_write fresh, List.map_append]
    exact List.perm_append_comm.trans (perm.cons message.message)
  · have single := OutboxDispatcher.single_of_delivering (dispatcher_reaches before)
    obtain ⟨delivers, noInsert⟩ := side.delivers
    exact perm.trans
      (OutboxDispatcher.rows_perm_of_step single delivers.1 moved noInsert).symm

/-- The rows, with what calls in flight still owe, are what the calls committed to. -/
theorem rows_perm_committed :
    ((OutboxDispatcher.rows c.2.shared).map OutboxMessage.message ++
        c.1.tasks.flatMap fun t => runner.owed t.past).Perm
      (c.1.tasks.flatMap fun t => runner.committed t.past) :=
  ((log_perm_rows reached).symm.append_right _).trans
    (outbox_perm_committed (runner_reaches reached))

/-- Nothing is dispatched before the transition that commands it is saved. -/
theorem called_committed : ∀ call ∈ c.2.shared.calls,
    ∃ t ∈ c.1.tasks, call.record.message ∈ runner.committed t.past := by
  intro call made
  have single := OutboxDispatcher.single_of_delivering (dispatcher_reaches reached)
  obtain ⟨row, found, same⟩ := OutboxDispatcher.called_message single call made
  have listed : row.message ∈ (OutboxDispatcher.rows c.2.shared).map OutboxMessage.message := by
    refine List.mem_map_of_mem (OutboxDispatcher.mem_rows.mpr ?_)
    rwa [InMemoryOutboxRepository.id_of_get found]
  have committed := (rows_perm_committed reached).subset (List.mem_append_left _ listed)
  rw [same] at committed
  exact List.mem_flatMap.mp committed

/-- What the publisher returned is possible. -/
theorem called_answers : ∀ call ∈ c.2.shared.calls,
    publisher.Answers call.record.message call.outcome := by
  refine reached.invariant (P := fun c => ∀ call ∈ c.2.shared.calls,
    publisher.Answers call.record.message call.outcome) (fun _ made => by cases made) ?_
  intro d e action before known side stepped
  obtain ⟨arrival, shared, args, rfl, arrived, rfl⟩ |
    ⟨i, choice, t, op, next, shared, reply, rfl, found, awaits, served, ⟨-, rfl⟩ |
      ⟨arrival, q, hands, moved, rfl⟩⟩ | ⟨action, q, rfl, moved, rfl⟩ := Joint.step_cases stepped
  · exact known
  · exact known
  · obtain ⟨message, -, rfl⟩ := Option.map_eq_some_iff.mp hands
    cases moved.symm.trans (OutboxDispatcher.step_insert d.2 message)
    exact known
  · obtain ⟨arrival, shared, args, rfl, arrived, rfl⟩ |
      ⟨i, choice, t, op, next, shared, reply, rfl, found, awaits, served, rfl⟩ :=
      System.step_cases moved
    · have same : shared.calls = d.2.shared.calls := OutboxDispatcher.calls_of_arrive arrived
      intro call made
      exact known call (same ▸ made)
    · have grown : shared.calls = d.2.shared.calls ++ (OutboxDispatcher.callMade choice op).toList :=
        OutboxDispatcher.calls_of_serve served
      have answered : Answered publisher choice.published (some op) :=
        Pool.awaits_eq found awaits ▸ side
      intro call made
      rw [Pool.advance_shared, grown] at made
      rcases List.mem_append.mp made with old | new
      · exact known call old
      · cases op with
        | publish record =>
            cases List.mem_singleton.mp new
            exact answered
        | recordAttempt _ | markPublished _ | decideFor _ _ | markFailed _ _ | scheduleRetry _ _
        | yield _ _ => cases new

end Runs

/-! ## Every command once -/

/-- The commands that the dispatcher behind the publisher was given and accepted. -/
def given (publisher : DurableCommandPublisher C) (s : OutboxShared) : List C :=
  (OutboxDispatcher.acceptedCalls s).filterMap fun call =>
    (publisher.decode call.record.message.payload).toOption

/-- No call of the runner is in flight and the dispatcher is between two runs. -/
def AtRest (c : RelayPools I St E C ε) : Prop :=
  c.1.Quiescent ∧ c.2.Quiescent ∧ c.2.shared.run.waiting = []

instance (c : RelayPools I St E C ε) : Decidable (AtRest c) :=
  inferInstanceAs (Decidable (c.1.Quiescent ∧ c.2.Quiescent ∧ c.2.shared.run.waiting = []))

section Runs

variable {runner} {publisher : DurableCommandPublisher C} {config : DispatchConfig}
  {claimLease : ChronoDuration} {c : RelayPools I St E C ε}
  (decodes : ∀ command, publisher.decode (runner.mapCommand command).payload = .ok command)
  (reached : (runner.relay config).Reaches (Relaying publisher config) (relayInitial claimLease) c)

include decodes reached

/-- The commands given are those of the accepted publish calls. -/
theorem map_given : (given publisher c.2.shared).map runner.mapCommand =
    (OutboxDispatcher.acceptedCalls c.2.shared).map (·.record.message) := by
  have known : ∀ call ∈ OutboxDispatcher.acceptedCalls c.2.shared,
      ∃ command, runner.mapCommand command = call.record.message := by
    intro call listed
    obtain ⟨t, -, committed⟩ :=
      called_committed reached call (OutboxDispatcher.mem_acceptedCalls.mp listed).1
    exact runner.exists_command committed
  unfold given
  generalize OutboxDispatcher.acceptedCalls c.2.shared = calls at known
  induction calls with
  | nil => rfl
  | cons call calls ih =>
      obtain ⟨command, same⟩ := known call List.mem_cons_self
      have decoded := decodes command
      rw [same] at decoded
      rw [List.filterMap_cons, decoded, List.map_cons,
        ← ih fun call member => known call (List.mem_cons_of_mem _ member), ← same]
      rfl

end Runs

/-- The saga `tally`, its commands spelt out in unary. -/
def unaryTally : SagaRunner ℕ ℕ (ℕ × ℕ) ℕ String where
  saga := tally.saga
  mapCommand command :=
    { messageId := command, topic := "tally", payload := List.replicate command 0 }

/-- Reads a command in unary. -/
def unaryPublisher : DurableCommandPublisher ℕ where
  decode payload := .ok payload.length

/-- Saga 7 starts with the amount 2; its command is refused once and then accepted. -/
def refusedThenGiven :
    List (Action (SagaChoice ℕ) (SagaCall (ℕ × ℕ)) ⊕ Action DispatchChoice OutboxArrival) :=
  List.flatten [[.inl (.arrive (.handle (7, 2)))], List.replicate 7 (.inl (.step 0 { uuid := 1 })),
    [.inr (.arrive (.dispatch 10 0 [1])), .inr (.arrive .nextLane), .inr (.step 0 {}),
      .inr (.step 0 { published := .error (.publish "busy") })], List.replicate 3 (.inr (.step 0 {})),
    [.inr (.arrive (.dispatch 10 1000000000 [1])), .inr (.arrive .nextLane)],
    List.replicate 4 (.inr (.step 1 {}))]

end SagaRunner

end Pharos

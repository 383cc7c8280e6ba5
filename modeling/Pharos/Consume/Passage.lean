import Pharos.Async.Chain
import Pharos.Consume.Pipeline
import Pharos.UnitOfWork.Publication

/-!
# From a save to the handlers

Callers of `save_and_enqueue_in`, the dispatcher that drains their outbox and the consumers of the
broker it publishes to, all in any interleaving.  A handler hears of nothing but what was
committed, and what was committed is handled, parked or given up (`passage_delivers`).
-/

namespace Pharos

namespace Passage

open Async InMemoryUnitOfWork
open Consumer (BrokerArrival Call ConsumeChoice ConsumeEntry ConsumeShared InMemoryOutside
  ProcessResult)

section Passage

variable {I St E : Type} [DecidableEq I] (idOf : St → I)

/-- The calls on the unit of work, the lanes of the dispatcher and the calls of the consumers. -/
def passage (config : DispatchConfig) (retry : RetryPolicy) :
    Chain (unitOfWorkSignature I St E) (UnitOfWorkShared I St E) UnitOfWorkChoice
      (UnitOfWorkCall I St E) (UnitOfWorkTask I St E) (UnitOfWorkReturn St E) dispatchSignature
      OutboxShared DispatchChoice OutboxArrival DispatchLane Unit consumeSignature
      (ConsumeShared InMemoryOutside) ConsumeChoice BrokerArrival Call ProcessResult where
  front := publication idOf config
  last := Consumer.system (Consumer.inMemory retry)
  hands event := (Consumer.putOnBroker event).map .publish

abbrev PassagePools (I St E : Type) [DecidableEq I] :=
  Chain.Pools (unitOfWorkSignature I St E) (UnitOfWorkShared I St E) UnitOfWorkChoice
    (UnitOfWorkTask I St E) (UnitOfWorkReturn St E) dispatchSignature OutboxShared DispatchChoice
    DispatchLane Unit consumeSignature (ConsumeShared InMemoryOutside) ConsumeChoice Call
    ProcessResult

abbrev PassageAction (I St E : Type) :=
  Action UnitOfWorkChoice (UnitOfWorkCall I St E) ⊕ Action DispatchChoice OutboxArrival ⊕
    Action ConsumeChoice BrokerArrival

/-- Nobody but the callers inserts into the outbox, and nobody but the dispatcher publishes. -/
def Passing (config : DispatchConfig) (c : PassagePools I St E) : PassageAction I St E → Prop
  | .inl action => Publishing config (c.1, c.2.1) (.inl action)
  | .inr (.inl action) => Publishing config (c.1, c.2.1) (.inr action)
  | .inr (.inr action) => Consumer.Piping config c.2 (.inr action)

instance (config : DispatchConfig) (c : PassagePools I St E) : DecidablePred (Passing config c)
  | .inl action => inferInstanceAs (Decidable (Publishing config (c.1, c.2.1) (.inl action)))
  | .inr (.inl action) =>
      inferInstanceAs (Decidable (Publishing config (c.1, c.2.1) (.inr action)))
  | .inr (.inr action) => inferInstanceAs (Decidable (Consumer.Piping config c.2 (.inr action)))

/-- Nothing has happened yet. -/
def passageInitial (claimLease : ChronoDuration) (staleAfter : Duration) (epoch : Time) :
    PassagePools I St E :=
  ((publicationInitial claimLease).1, Consumer.pipelineInitial claimLease staleAfter epoch)

end Passage

/-- The publisher refused a row for good: with a poison error, or each attempt of its budget. -/
def GivenUp (config : DispatchConfig) (s : OutboxShared) (row : OutboxMessage) : Prop :=
  row.status = .failed ∧
    ((∃ outcome ∈ OutboxDispatcher.outcomesOf s row.id, OutboxDispatcher.IsPoison outcome) ∨
      (OutboxDispatcher.outcomesOf s row.id).length = config.retry.budget ∧
        .ok () ∉ OutboxDispatcher.outcomesOf s row.id)

section Runs

variable {I St E : Type} [DecidableEq I]

/-- What became of a message: the dispatcher gave it up, a handler succeeded on it, or it was
parked. -/
inductive Landed (config : DispatchConfig) (c : PassagePools I St E) (message : Message) : Prop
  | givenUp (row : OutboxMessage) (listed : row ∈ OutboxDispatcher.rows c.2.1.shared)
      (own : row.message = message) (refused : GivenUp config c.2.1.shared row)
  | handled (entry : ConsumeEntry InMemoryOutside) (traced : entry ∈ c.2.2.trace)
      (success : Consumer.HandledOk message.messageId entry.event)
  | parked (dead : DeadLetterMessage) (listed : dead ∈ c.2.2.shared.outside.deadLetters.messages)
      (own : dead.message = message)

variable {idOf : St → I} {config : DispatchConfig} {retry : RetryPolicy}
  {claimLease : ChronoDuration} {staleAfter : Duration} {epoch : Time} {c : PassagePools I St E}
  (reached : (passage idOf config retry).Reaches (Passing config)
    (passageInitial claimLease staleAfter epoch) c)

include reached

theorem publication_reaches : (publication idOf config).Reaches (Publishing config)
    (publicationInitial claimLease) (c.1, c.2.1) :=
  Chain.Reaches.front reached (fun side => side) fun side => side

theorem pipeline_reaches : (Consumer.pipeline config retry).Reaches (Consumer.Piping config)
    (Consumer.pipelineInitial claimLease staleAfter epoch) c.2 := by
  apply Chain.Reaches.back reached
  · intro e action _ side
    cases action with
    | inl action => exact (Publishing.delivers side).1
    | inr action => exact side
  · intro e i choice t op next shared reply arrival before _ found awaits _ hands
    exact delivering_of_hands (publication_reaches before) found awaits hands

/-- A handler only hears of what was committed. -/
theorem committed_of_handles : ∀ entry ∈ c.2.2.trace, ∀ message,
    Consumer.Handles message entry.event.op → ∃ t ∈ c.1.tasks, ∃ aggregate,
      t.args.call = .saveAndEnqueue aggregate ∧ written t.past = [stored aggregate] ∧
        message ∈ enqueued t.past := by
  intro entry traced message handles
  have pipeline := pipeline_reaches reached
  have published := Consumer.published_of_handles (Consumer.consumers_reach pipeline) traced handles
  rw [Consumer.published_eq_accepted pipeline] at published
  obtain ⟨call, accepted, rfl⟩ := List.mem_map.mp published
  exact called_written (publication_reaches reached) call
    (OutboxDispatcher.mem_acceptedCalls.mp accepted).1

/-- At rest a row has come to something. -/
theorem landed_of_row (lease : staleAfter ≤ chronoDurationMax) (drained : Consumer.Drained c.2)
    {row : OutboxMessage} (listed : row ∈ OutboxDispatcher.rows c.2.1.shared) :
    Landed config c row.message := by
  have pipeline := pipeline_reaches reached
  have delivering := Consumer.dispatcher_reaches pipeline
  have accounted := (OutboxDispatcher.ledger_of_reaches delivering).accounted
    (OutboxDispatcher.consistent_of_reaches (OutboxDispatcher.single_of_delivering delivering))
    drained.dispatcher drained.lanes (OutboxDispatcher.mem_rows.mp listed)
  rcases accounted.2.status_cases with pending | published | failed
  · exact (drained.rows row listed pending).elim
  · rcases drained.settled pipeline lease listed published with ⟨entry, traced, ok⟩ |
      ⟨dead, parked, same⟩
    · exact .handled entry traced ok
    · exact .parked dead parked same
  · exact .givenUp row listed rfl ⟨failed,
      OutboxDispatcher.givenUp_of_failed delivering drained.dispatcher drained.lanes listed failed⟩

/-- From a save to the handlers.  In every configuration that any interleaving of callers, dispatch
runs and consumers reaches, a handler is only called with the message of a call that has stored its
aggregate.  Once nothing is under way, the messages on the broker and those that are not published
are together those of the saves that returned `Ok`, each once; and each pending event of such a
save was mapped to a message that was handled, is parked, or was given up by the dispatcher. -/
theorem passage_delivers (lease : staleAfter ≤ chronoDurationMax) :
    (∀ entry ∈ c.2.2.trace, ∀ message, Consumer.Handles message entry.event.op →
      ∃ t ∈ c.1.tasks, ∃ aggregate, t.args.call = .saveAndEnqueue aggregate ∧
        written t.past = [stored aggregate] ∧ message ∈ enqueued t.past) ∧
    (c.1.Quiescent → Consumer.Drained c.2 →
      (c.2.2.shared.outside.published ++ OutboxDispatcher.undelivered c.2.1.shared).Perm
        (c.1.tasks.flatMap fun t => (announcements t).map Prod.snd) ∧
      ∀ t ∈ c.1.tasks, ∀ aggregate after, t.args.call = .saveAndEnqueue aggregate →
        t.rest = .ret (.enqueued after (.ok ())) → ∀ event ∈ aggregate.pending,
        ∃ message, (event, message) ∈ announcements t ∧ Landed config c message) := by
  have publication := publication_reaches reached
  have pipeline := pipeline_reaches reached
  refine ⟨committed_of_handles reached, fun quiescent drained => ⟨?_, ?_⟩⟩
  · rw [Consumer.published_eq_accepted pipeline]
    exact (OutboxDispatcher.accepted_append_undelivered (Consumer.dispatcher_reaches pipeline)
      drained.dispatcher drained.lanes).trans (rows_perm_announced publication quiescent)
  · intro t started aggregate after called rest event pending
    rw [← announcements_fst (calls_reach publication) t started called rest] at pending
    obtain ⟨⟨event, message⟩, announces, rfl⟩ := List.mem_map.mp pending
    refine ⟨message, announces, ?_⟩
    have announced : message ∈ c.1.tasks.flatMap fun t => (announcements t).map Prod.snd :=
      List.mem_flatMap.mpr ⟨t, started, List.mem_map_of_mem announces⟩
    obtain ⟨row, listed, rfl⟩ :=
      List.mem_map.mp ((rows_perm_announced publication quiescent).mem_iff.mpr announced)
    exact landed_of_row reached lease drained listed

end Runs

/-- Of an order's two events one is handled, and the message of the other is refused for good; the
saves that fail announce nothing. -/
def handledAndGivenUp : List (PassageAction ℕ ℕ ℕ) :=
  List.flatten [contended.map .inl,
    [.inr (.inl (.arrive (.dispatch 10 0 [1, 3]))), .inr (.inl (.arrive .nextLane)),
      .inr (.inl (.arrive .nextLane))],
    List.replicate 4 (.inr (.inl (.step 0 {}))),
    [.inr (.inl (.step 1 {})),
      .inr (.inl (.step 1 { published := .error (.publishPoisoned "refused") }))],
    List.replicate 3 (.inr (.inl (.step 1 {}))), [.inr (.inr Consumer.take)],
    List.replicate 4 (.inr (.inr (.step 0 {})))]

theorem passage_delivers_handledAndGivenUp : ∃ c : PassagePools ℕ ℕ ℕ,
    (passage id OutboxDispatcher.twoLanes Consumer.oneAttempt).Reaches
      (Passing OutboxDispatcher.twoLanes) (passageInitial 30 10 0) c ∧
    [announced 7, announced 8].Perm
      (c.1.tasks.flatMap fun t => (announcements t).map Prod.snd) ∧
    ∃ t ∈ c.1.tasks, ∀ event ∈ [7, 8], ∃ message, (event, message) ∈ announcements t ∧
      Landed OutboxDispatcher.twoLanes c message := by
  have run : ((@passage ℕ ℕ ℕ _ id OutboxDispatcher.twoLanes Consumer.oneAttempt).exec
      (Passing OutboxDispatcher.twoLanes) (passageInitial 30 10 0) handledAndGivenUp).any (fun c =>
        decide (c.1.Quiescent ∧ Consumer.Drained c.2 ∧
          c.2.2.shared.outside.published = [announced 7] ∧
          OutboxDispatcher.undelivered c.2.1.shared = [announced 8]) &&
        (c.1.tasks[0]?.any fun t => decide (t.args.call = .saveAndEnqueue (order [7, 8]) ∧
          t.rest.result = some (.enqueued { state := 1, version := 1 } (.ok ()))))) = true := by
    decide +kernel
  obtain ⟨c, reached, found⟩ := Chain.exists_reaches_of_exec run
  simp only [Bool.and_eq_true, Option.any_eq_true, decide_eq_true_eq] at found
  obtain ⟨⟨calls, drained, given, kept⟩, t, at_, called, ok⟩ := found
  obtain ⟨settled, landed⟩ := (passage_delivers reached (by decide)).2 calls drained
  rw [given, kept] at settled
  refine ⟨c, reached, settled, t, List.mem_of_getElem? at_, ?_⟩
  exact landed t (List.mem_of_getElem? at_) _ _ called (Program.eq_ret_of_result ok)

end Passage

end Pharos

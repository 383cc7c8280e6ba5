import Pharos.Async.Joint
import Pharos.Outbox.Relay
import Pharos.UnitOfWork.Atomic

/-!
# The transactional outbox

Callers of `save_and_enqueue_in` over one unit of work, and a dispatcher that drains its outbox, in
any interleaving.  The calls only ever insert rows, so of the outbox their side keeps the rows as
they were inserted, and the dispatcher works on the rows themselves.  The events of a save that
committed are published, once each, or are still in the outbox; those of a save that failed are
never published (`transactional_outbox`).
-/

namespace Pharos

namespace InMemoryUnitOfWork

open Async

variable {I St E : Type}

/-- The messages a call put into the outbox, in order. -/
def enqueued (past : List (UnitOfWorkEvent I St E)) : List Message :=
  (inserted past).map OutboxMessage.message

theorem enqueued_cons (event : UnitOfWorkEvent I St E) (past : List (UnitOfWorkEvent I St E)) :
    enqueued (event :: past) =
      enqueued past ++ ((insertedBy event).map OutboxMessage.message).toList := by
  unfold enqueued inserted
  rw [List.filterMap_cons]
  cases insertedBy event <;> simp

/-- A made record is as `OutboxMessage::new` makes it. -/
def IsNew (record : OutboxMessage) : Prop := record.status = .pending ∧ record.attempts = 0

variable [DecidableEq I] {idOf : St → I}

/-- The calls on the unit of work and the lanes of the dispatcher that drains its outbox. -/
def publication (idOf : St → I) (config : DispatchConfig) :
    Joint (unitOfWorkSignature I St E) (UnitOfWorkShared I St E) UnitOfWorkChoice
      (UnitOfWorkCall I St E) (UnitOfWorkTask I St E) (UnitOfWorkReturn St E) dispatchSignature
      OutboxShared DispatchChoice OutboxArrival DispatchLane Unit where
  left := system idOf
  right := OutboxDispatcher.system config
  hands event := (insertedBy event).map .insert

abbrev PublicationPools (I St E : Type) [DecidableEq I] :=
  Joint.Pools (unitOfWorkSignature I St E) (UnitOfWorkShared I St E) UnitOfWorkChoice
    (UnitOfWorkTask I St E) (UnitOfWorkReturn St E) dispatchSignature OutboxShared DispatchChoice
    DispatchLane Unit

/-- Callers save in transactions and find aggregates; nobody else inserts into the outbox; and one
dispatcher drains it. -/
def Publishing (config : DispatchConfig) (c : PublicationPools I St E) :
    Action UnitOfWorkChoice (UnitOfWorkCall I St E) ⊕ Action DispatchChoice OutboxArrival → Prop
  | .inl (.arrive (.saveAndEnqueue _)) | .inl (.arrive (.find _)) | .inl (.step _ _) => True
  | .inl (.arrive (.save _)) | .inl (.arrive (.delete _)) | .inl (.arrive (.outboxRow _)) => False
  | .inr (.arrive (.insert _)) => False
  | .inr (.arrive (.dispatch limit now order)) =>
      OutboxDispatcher.Single config c.2 (.arrive (.dispatch limit now order))
  | .inr (.arrive .nextLane) => OutboxDispatcher.Single config c.2 (.arrive .nextLane)
  | .inr (.step _ _) => True

instance (config : DispatchConfig) (c : PublicationPools I St E) :
    DecidablePred (Publishing config c)
  | .inl (.arrive (.saveAndEnqueue _)) | .inl (.arrive (.find _)) | .inl (.step _ _) =>
      .isTrue trivial
  | .inl (.arrive (.save _)) | .inl (.arrive (.delete _)) | .inl (.arrive (.outboxRow _)) =>
      .isFalse id
  | .inr (.arrive (.insert _)) => .isFalse id
  | .inr (.arrive (.dispatch limit now order)) =>
      inferInstanceAs (Decidable
        (OutboxDispatcher.Single config c.2 (.arrive (.dispatch limit now order))))
  | .inr (.arrive .nextLane) =>
      inferInstanceAs (Decidable (OutboxDispatcher.Single config c.2 (.arrive .nextLane)))
  | .inr (.step _ _) => .isTrue trivial

/-- Nothing has happened yet. -/
def publicationInitial (claimLease : ChronoDuration) : PublicationPools I St E :=
  (initial (.new claimLease), OutboxDispatcher.initial claimLease)

theorem Publishing.transacts {config : DispatchConfig} {c : PublicationPools I St E}
    {action : Action UnitOfWorkChoice (UnitOfWorkCall I St E)}
    (side : Publishing config c (.inl action)) : Transacts c.1 action := by
  cases action with
  | step i choice => trivial
  | arrive call =>
      cases call with
      | save aggregate | delete id => exact side
      | saveAndEnqueue aggregate | find id | outboxRow id => trivial

theorem Publishing.delivers {config : DispatchConfig} {c : PublicationPools I St E}
    {action : Action DispatchChoice OutboxArrival} (side : Publishing config c (.inr action)) :
    OutboxDispatcher.Delivering config c.2 action ∧
      ∀ message, action ≠ .arrive (.insert message) := by
  cases action with
  | step i choice => exact ⟨⟨trivial, trivial⟩, fun _ inserts => by cases inserts⟩
  | arrive arrival =>
      cases arrival with
      | insert message => exact side.elim
      | dispatch limit now order => exact ⟨⟨side, trivial⟩, fun _ inserts => by cases inserts⟩
      | nextLane => exact ⟨⟨side, trivial⟩, fun _ inserts => by cases inserts⟩

/-! ## What a caller inserts -/

section Calls

variable {p : UnitOfWorkPool I St E} {outbox : InMemoryOutboxRepository} {i : ℕ}
  {t : RunningCall I St E} {message : OutboxMessage} {choice : UnitOfWorkChoice}
  {next : (.insertOutbox message : UnitOfWorkOp I St E).Reply →
    UnitOfWorkM I St E (UnitOfWorkReturn St E)}
  (reached : (system idOf).Reaches Transacts (initial outbox) p)

include reached

theorem isNew_of_records : ∀ t ∈ p.tasks, ∀ record ∈ records t.past, IsNew record := by
  refine reached.forall_tasks (Q := fun _ past => ∀ record ∈ records past, IsNew record) rfl
    (fun _ _ made => by cases made) ?_
  intro q i t op next choice shared reply _ _ _ _ served known record made
  cases op with
  | nowV7 caller now message =>
      have answered : serve idOf q.shared choice (.nowV7 caller now message) = some (shared, reply) :=
        served
      rw [serve] at answered
      split at answered
      · cases answered
        rw [records_nowV7] at made
        rcases List.mem_append.mp made with old | new
        · exact known record old
        · cases List.mem_singleton.mp new
          exact ⟨rfl, rfl⟩
      · cases answered
  | _ => exact known record made

/-- Only a saving call inserts, and what it inserts is not in the outbox yet. -/
theorem absent_of_inserts (found : p.tasks[i]? = some t)
    (awaits : t.rest = .await (.insertOutbox message) next) :
    ∃ aggregate, t.args.call = .saveAndEnqueue aggregate ∧
      p.shared.outbox.get message.id = none := by
  have pre : Pre idOf t.args t.past p.shared (.insertOutbox message) :=
    (outline_of_reaches reached).pre found awaits
  unfold Pre at pre
  split at pre
  · next aggregate called => exact ⟨aggregate, called, pre.2.2.2⟩
  · cases pre
  · cases pre
  · exact pre.elim
  · exact pre.elim

/-- What is inserted is new. -/
theorem isNew_of_inserts (found : p.tasks[i]? = some t)
    (awaits : t.rest = .await (.insertOutbox message) next) : IsNew message := by
  obtain ⟨aggregate, called, -⟩ := absent_of_inserts reached found awaits
  -- once it is inserted it is among the records the call made
  have served : (system idOf).serve p.shared {} (.insertOutbox message) =
      some ({ p.shared with outbox := p.shared.outbox.write message }, .ok ()) := rfl
  have later := reached.tail ⟨.step i {}, trivial, System.step_of_serve found awaits served⟩
  have found' : (p.advance i t ⟨{}, .insertOutbox message, .ok ()⟩
      { p.shared with outbox := p.shared.outbox.write message } (next (.ok ()))).tasks[i]? =
        some ⟨t.args, ⟨{}, .insertOutbox message, .ok ()⟩ :: t.past, next (.ok ())⟩ :=
    List.getElem?_set_self (List.getElem?_eq_some_iff.mp found).1
  have progress := progress_of_reaches later found' called
  refine isNew_of_records later _ (List.mem_of_getElem? found') message (progress.ahead.subset ?_)
  rw [inserted_insertOutbox]
  exact List.mem_append_right _ (List.mem_singleton_self _)

end Calls

/-! ## What a call announces -/

/-- The events of a save that returned `Ok`, with the messages they were mapped to. -/
def announcements (t : RunningCall I St E) : List (E × Message) :=
  match t.args.call, t.rest.result with
  | .saveAndEnqueue _, some (.enqueued _ (.ok ())) => mapped t.past
  | _, _ => []

section Announcements

variable {p : UnitOfWorkPool I St E} {outbox : InMemoryOutboxRepository}
  (reached : (system idOf).Reaches Transacts (initial outbox) p)

include reached

/-- Only a saving call enqueues. -/
theorem saving_of_enqueued : ∀ t ∈ p.tasks, enqueued t.past ≠ [] →
    ∃ aggregate, t.args.call = .saveAndEnqueue aggregate := by
  refine reached.forall_tasks (Q := fun args past => enqueued past ≠ [] →
    ∃ aggregate, args.call = .saveAndEnqueue aggregate) rfl (fun _ some => (some rfl).elim) ?_
  intro q i t op next choice shared reply before found awaits _ _ known some
  cases inserts : insertedBy (⟨choice, op, reply⟩ : UnitOfWorkEvent I St E) with
  | none =>
      rw [enqueued_cons, inserts] at some
      apply known
      simpa using some
  | some message =>
      obtain ⟨-, rfl⟩ := insert_of_pre ((outline_of_reaches before).pre found awaits) inserts
      obtain ⟨aggregate, called, -⟩ := absent_of_inserts before found awaits
      exact ⟨aggregate, called⟩

/-- A call enqueues only after it stored its aggregate. -/
theorem written_of_enqueued : ∀ t ∈ p.tasks, enqueued t.past ≠ [] → ∃ aggregate,
    t.args.call = .saveAndEnqueue aggregate ∧ written t.past = [stored aggregate] := by
  intro t started some
  obtain ⟨aggregate, called⟩ := saving_of_enqueued reached t started some
  obtain ⟨i, found⟩ := List.mem_iff_getElem?.mp started
  refine ⟨aggregate, called, ?_⟩
  rcases (progress_of_reaches reached found called).write with ⟨-, none⟩ | ⟨wrote, -⟩
  · simp [enqueued, none] at some
  · exact wrote

/-- A call that returned has enqueued what it announces. -/
theorem enqueued_of_finished : ∀ t ∈ p.tasks, t.Finished →
    enqueued t.past = (announcements t).map Prod.snd := by
  intro t started finished
  obtain ⟨i, found⟩ := List.mem_iff_getElem?.mp started
  cases called : t.args.call with
  | saveAndEnqueue aggregate =>
      cases rest : t.rest with
      | await op next =>
          unfold Task.Finished at finished
          rw [rest] at finished
          cases finished
      | ret value =>
          have post := post_of_reaches reached found called rest
          cases post.2 with
          | failed nothing =>
              have none : enqueued t.past = [] := by
                by_contra some
                obtain ⟨_, -, wrote⟩ := written_of_enqueued reached t started some
                rw [nothing] at wrote
                cases wrote
              rw [none]
              unfold announcements
              rw [called, rest]
              rfl
          | committed _ all _ messages =>
              unfold announcements enqueued
              rw [called, rest, all, messages]
              rfl
  | save _ | delete _ | find _ | outboxRow _ =>
      have none : enqueued t.past = [] := by
        by_contra some
        obtain ⟨aggregate, saving⟩ := saving_of_enqueued reached t started some
        rw [called] at saving
        cases saving
      rw [none]
      unfold announcements
      rw [called]
      rfl

/-- A save that returned `Ok` announces its pending events, in order. -/
theorem announcements_fst {aggregate after : Aggregate St E} : ∀ t ∈ p.tasks,
    t.args.call = .saveAndEnqueue aggregate → t.rest = .ret (.enqueued after (.ok ())) →
    (announcements t).map Prod.fst = aggregate.pending := by
  intro t started called rest
  obtain ⟨i, found⟩ := List.mem_iff_getElem?.mp started
  obtain ⟨-, ended⟩ := post_of_reaches reached found called rest
  cases ended with
  | committed _ _ events _ =>
      unfold announcements
      rw [called, rest]
      exact events

end Announcements

/-! ## Whole runs -/

section Runs

variable {config : DispatchConfig} {claimLease : ChronoDuration} {c : PublicationPools I St E}
  (reached : (publication idOf config).Reaches (Publishing config) (publicationInitial claimLease) c)

include reached

theorem calls_reach : (system idOf).Reaches Transacts (initial (.new claimLease)) c.1 :=
  Joint.Reaches.left reached fun side => side.transacts

omit reached in
/-- What a call inserts is new to the dispatcher, if the rows are those that the calls inserted. -/
theorem delivering_of_inserts
    (calls : (system idOf).Reaches Transacts (initial (.new claimLease)) c.1)
    (linked : ∀ id, (c.1.shared.outbox.get id).isSome = (c.2.shared.repo.get id).isSome) {i : ℕ}
    {t : RunningCall I St E} {op : UnitOfWorkOp I St E} {choice : UnitOfWorkChoice}
    {reply : op.Reply} {next : op.Reply → UnitOfWorkM I St E (UnitOfWorkReturn St E)}
    (found : c.1.tasks[i]? = some t) (awaits : t.rest = .await op next) {message : OutboxMessage}
    (inserts : insertedBy (⟨choice, op, reply⟩ : UnitOfWorkEvent I St E) = some message) :
    OutboxDispatcher.Delivering config c.2 (.arrive (.insert message)) := by
  obtain ⟨-, rfl⟩ := insert_of_pre ((outline_of_reaches calls).pre found awaits) inserts
  obtain ⟨aggregate, -, absent⟩ := absent_of_inserts calls found awaits
  have fresh : c.2.shared.repo.get message.id = none := by
    rw [← Option.isNone_iff_eq_none, ← Option.not_isSome, ← linked, absent]
    rfl
  exact ⟨fresh, isNew_of_inserts calls found awaits⟩

/-- The dispatcher's half of the run, and the rows are those that the calls inserted. -/
theorem dispatcher_linked : (OutboxDispatcher.system config).Reaches
      (OutboxDispatcher.Delivering config) (OutboxDispatcher.initial claimLease) c.2 ∧
    ∀ id, (c.1.shared.outbox.get id).isSome = (c.2.shared.repo.get id).isSome := by
  refine reached.invariant (P := fun c : PublicationPools I St E =>
    (OutboxDispatcher.system config).Reaches (OutboxDispatcher.Delivering config)
      (OutboxDispatcher.initial claimLease) c.2 ∧
    ∀ id, (c.1.shared.outbox.get id).isSome = (c.2.shared.repo.get id).isSome)
    ⟨.refl, fun _ => rfl⟩ ?_
  intro d e action before both side stepped
  obtain ⟨dispatcher, linked⟩ := both
  have calls := calls_reach before
  obtain ⟨arrival, shared, args, rfl, arrived, rfl⟩ |
    ⟨i, choice, t, op, next, shared, reply, rfl, found, awaits, served, ⟨silent, rfl⟩ |
      ⟨arrival, q, hands, moved, rfl⟩⟩ | ⟨action, q, rfl, moved, rfl⟩ := Joint.step_cases stepped
  · cases arrived
    exact ⟨dispatcher, linked⟩
  · have pre := (outline_of_reaches calls).pre found awaits
    have same : shared.outbox = d.1.shared.outbox :=
      (unchanged_of_serve pre served).2 (Option.map_eq_none_iff.mp silent)
    refine ⟨dispatcher, fun id => ?_⟩
    rw [Pool.advance_shared, same]
    exact linked id
  · obtain ⟨message, inserts, rfl⟩ := Option.map_eq_some_iff.mp hands
    have delivers : OutboxDispatcher.Delivering config d.2 (.arrive (.insert message)) :=
      delivering_of_inserts calls linked found awaits inserts
    obtain ⟨-, rfl⟩ := insert_of_pre ((outline_of_reaches calls).pre found awaits) inserts
    refine ⟨dispatcher.tail ⟨.arrive (.insert message), delivers, moved⟩, fun id => ?_⟩
    cases moved.symm.trans (OutboxDispatcher.step_insert d.2 message)
    cases served
    show ((d.1.shared.outbox.write message).get id).isSome =
      ((d.2.shared.repo.write message).get id).isSome
    rw [InMemoryOutboxRepository.get_write, InMemoryOutboxRepository.get_write]
    split
    · rfl
    · exact linked id
  · obtain ⟨delivers, noInsert⟩ := side.delivers
    refine ⟨dispatcher.tail ⟨action, delivers, moved⟩, fun id => ?_⟩
    have same := OutboxDispatcher.message_of_step
      (OutboxDispatcher.single_of_delivering dispatcher) delivers.1 moved noInsert id
    rw [linked id, ← Option.isSome_map (f := OutboxMessage.message),
      ← Option.isSome_map (f := OutboxMessage.message), same]

theorem dispatcher_reaches : (OutboxDispatcher.system config).Reaches
    (OutboxDispatcher.Delivering config) (OutboxDispatcher.initial claimLease) c.2 :=
  (dispatcher_linked reached).1

/-- What the calls hand over, the dispatcher can take. -/
theorem delivering_of_hands {i : ℕ} {t : RunningCall I St E} {op : UnitOfWorkOp I St E}
    {choice : UnitOfWorkChoice} {reply : op.Reply}
    {next : op.Reply → UnitOfWorkM I St E (UnitOfWorkReturn St E)}
    (found : c.1.tasks[i]? = some t) (awaits : t.rest = .await op next) {arrival : OutboxArrival}
    (hands : (publication idOf config).hands ⟨choice, op, reply⟩ = some arrival) :
    OutboxDispatcher.Delivering config c.2 (.arrive arrival) := by
  obtain ⟨message, inserts, rfl⟩ := Option.map_eq_some_iff.mp hands
  exact delivering_of_inserts (calls_reach reached) (dispatcher_linked reached).2 found awaits
    inserts

/-- The rows are what the calls enqueued. -/
theorem rows_perm_enqueued : ((OutboxDispatcher.rows c.2.shared).map OutboxMessage.message).Perm
    (c.1.tasks.flatMap fun t => enqueued t.past) := by
  refine reached.invariant (P := fun c : PublicationPools I St E =>
    ((OutboxDispatcher.rows c.2.shared).map OutboxMessage.message).Perm
      (c.1.tasks.flatMap fun t => enqueued t.past)) .nil ?_
  intro d e action before perm side stepped
  have calls := calls_reach before
  obtain ⟨dispatcher, linked⟩ := dispatcher_linked before
  obtain ⟨arrival, shared, args, rfl, arrived, rfl⟩ |
    ⟨i, choice, t, op, next, shared, reply, rfl, found, awaits, served, ⟨silent, rfl⟩ |
      ⟨arrival, q, hands, moved, rfl⟩⟩ | ⟨action, q, rfl, moved, rfl⟩ := Joint.step_cases stepped
  · cases arrived
    rw [Pool.start_tasks, List.flatMap_append]
    simpa [enqueued, inserted] using perm
  · have same : enqueued (⟨choice, op, reply⟩ :: t.past) = enqueued t.past := by
      rw [enqueued_cons, Option.map_eq_none_iff.mp silent]
      exact List.append_nil _
    rw [Pool.advance_tasks, flatMap_set_of_eq found same]
    exact perm
  · obtain ⟨message, inserts, rfl⟩ := Option.map_eq_some_iff.mp hands
    have delivers : OutboxDispatcher.Delivering config d.2 (.arrive (.insert message)) :=
      delivering_of_inserts calls linked found awaits inserts
    cases moved.symm.trans (OutboxDispatcher.step_insert d.2 message)
    rw [OutboxDispatcher.rows_write delivers.1, List.map_cons]
    refine (perm.cons message.message).trans (List.perm_append_singleton _ _).symm |>.trans ?_
    refine (flatMap_set_perm found _ ?_).symm
    rw [enqueued_cons, inserts]
    rfl
  · obtain ⟨delivers, noInsert⟩ := side.delivers
    exact (OutboxDispatcher.rows_perm_of_step (OutboxDispatcher.single_of_delivering dispatcher)
      delivers.1 moved noInsert).trans perm

/-- Nothing is published before the save that announces it is in the aggregate map. -/
theorem called_written : ∀ call ∈ c.2.shared.calls, ∃ t ∈ c.1.tasks, ∃ aggregate,
    t.args.call = .saveAndEnqueue aggregate ∧ written t.past = [stored aggregate] ∧
      call.record.message ∈ enqueued t.past := by
  intro call made
  have single := OutboxDispatcher.single_of_delivering (dispatcher_reaches reached)
  obtain ⟨row, found, same⟩ := OutboxDispatcher.called_message single call made
  have listed : row.message ∈ (OutboxDispatcher.rows c.2.shared).map OutboxMessage.message := by
    apply List.mem_map_of_mem
    rw [OutboxDispatcher.mem_rows, InMemoryOutboxRepository.id_of_get found]
    exact found
  obtain ⟨t, started, own⟩ :=
    List.mem_flatMap.mp ((rows_perm_enqueued reached).subset listed)
  obtain ⟨aggregate, called, wrote⟩ :=
    written_of_enqueued (calls_reach reached) t started (List.ne_nil_of_mem own)
  exact ⟨t, started, aggregate, called, wrote, same ▸ own⟩

/-- At rest the rows are what the saves that returned `Ok` announced. -/
theorem rows_perm_announced (quiescent : c.1.Quiescent) :
    ((OutboxDispatcher.rows c.2.shared).map OutboxMessage.message).Perm
      (c.1.tasks.flatMap fun t => (announcements t).map Prod.snd) := by
  have same : (c.1.tasks.flatMap fun t => enqueued t.past) =
      c.1.tasks.flatMap fun t => (announcements t).map Prod.snd :=
    List.flatMap_congr fun t started =>
      enqueued_of_finished (calls_reach reached) t started (quiescent t started)
  exact same ▸ rows_perm_enqueued reached

/-- The transactional outbox.  Callers of `save_and_enqueue_in` share a unit of work, and one
dispatcher drains its outbox, one run at a time.  In every configuration that any interleaving of
their steps reaches: a publish call is for a message of a call that has stored its aggregate, and no
row is accepted twice.  Once the calls have returned and the dispatcher is between two runs, what
was accepted and what is not published yet are together the messages of the pending events of the
saves that returned `Ok`, each once and no others; and a row is given up only after a poison error
or after every attempt of the budget was refused. -/
theorem transactional_outbox :
    (∀ call ∈ c.2.shared.calls, ∃ t ∈ c.1.tasks, ∃ aggregate,
      t.args.call = .saveAndEnqueue aggregate ∧ written t.past = [stored aggregate] ∧
        call.record.message ∈ enqueued t.past) ∧
    ((OutboxDispatcher.acceptedCalls c.2.shared).map (·.record.id)).Nodup ∧
    (∀ t ∈ c.1.tasks, ∀ aggregate after, t.args.call = .saveAndEnqueue aggregate →
      t.rest = .ret (.enqueued after (.ok ())) →
      (announcements t).map Prod.fst = aggregate.pending) ∧
    (c.1.Quiescent → c.2.Quiescent → c.2.shared.run.waiting = [] →
      ((OutboxDispatcher.acceptedCalls c.2.shared).map (·.record.message) ++
          OutboxDispatcher.undelivered c.2.shared).Perm
        (c.1.tasks.flatMap fun t => (announcements t).map Prod.snd) ∧
      ∀ row ∈ OutboxDispatcher.rows c.2.shared, row.status = .failed →
        (∃ outcome ∈ OutboxDispatcher.outcomesOf c.2.shared row.id,
          OutboxDispatcher.IsPoison outcome) ∨
        (OutboxDispatcher.outcomesOf c.2.shared row.id).length = config.retry.budget ∧
          .ok () ∉ OutboxDispatcher.outcomesOf c.2.shared row.id) := by
  have delivering := dispatcher_reaches reached
  refine ⟨called_written reached, OutboxDispatcher.nodup_accepted delivering, ?_, ?_⟩
  · intro t started aggregate after called rest
    exact announcements_fst (calls_reach reached) t started called rest
  · intro quiescent quiescent' allDone
    constructor
    · exact (OutboxDispatcher.accepted_append_undelivered delivering quiescent' allDone).trans
        (rows_perm_announced reached quiescent)
    · intro row listed failed
      exact OutboxDispatcher.givenUp_of_failed delivering quiescent' allDone listed failed

end Runs

/-- Of the order's two messages one is published and one refused; the save that loses the race and
the one that cannot be mapped announce nothing. -/
def ordersPublished : List (Action UnitOfWorkChoice (UnitOfWorkCall ℕ ℕ ℕ) ⊕
    Action DispatchChoice OutboxArrival) :=
  List.flatten [contended.map .inl,
    [.inr (.arrive (.dispatch 10 0 [1, 3])), .inr (.arrive .nextLane), .inr (.arrive .nextLane)],
    List.replicate 4 (.inr (.step 0 {})),
    [.inr (.step 1 {}), .inr (.step 1 { published := .error (.publish "busy") })],
    List.replicate 3 (.inr (.step 1 {}))]

theorem transactional_outbox_ordersPublished : ∃ c : PublicationPools ℕ ℕ ℕ,
    (publication id OutboxDispatcher.twoLanes).Reaches (Publishing OutboxDispatcher.twoLanes)
      (publicationInitial 30) c ∧
    (OutboxDispatcher.acceptedCalls c.2.shared).map (·.record.message) = [announced 7] ∧
    OutboxDispatcher.undelivered c.2.shared = [announced 8] ∧
    [announced 7, announced 8].Perm
      (c.1.tasks.flatMap fun t => (announcements t).map Prod.snd) := by
  have along : (publication id OutboxDispatcher.twoLanes).Along
      (Publishing OutboxDispatcher.twoLanes) (publicationInitial 30) ordersPublished := by
    decide +kernel
  obtain ⟨c, reached, found⟩ := Joint.exists_reaches_of_exec
    (f := fun c : PublicationPools ℕ ℕ ℕ => decide (c.1.Quiescent ∧ c.2.Quiescent ∧
      c.2.shared.run.waiting = [] ∧
      (OutboxDispatcher.acceptedCalls c.2.shared).map (·.record.message) = [announced 7] ∧
      OutboxDispatcher.undelivered c.2.shared = [announced 8])) along (by decide +kernel)
  obtain ⟨calls, lanes, allDone, given, kept⟩ := of_decide_eq_true found
  have settled := ((transactional_outbox reached).2.2.2 calls lanes allDone).1
  rw [given, kept] at settled
  exact ⟨c, reached, given, kept, settled⟩

end InMemoryUnitOfWork

end Pharos

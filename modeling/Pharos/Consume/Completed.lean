import Pharos.Consume.Exclusion

/-!
# Completed records

`begin_processing` never hands a completed record out, but `mark_failed` writes over any
record: a call that lost its claim and fails late takes a completed message back, and the
next delivery runs the handler again (`completed_overwritten`).  As long as no failure is
marked on a completed record, completion is final (`completed_absorbing`).
-/

namespace Pharos

namespace Consumer

open Async

section Completed

variable {β κ : Type}

/-- The inbox has the message as completed for the consumer. -/
def Completed (s : ConsumeShared β) (id : Uuid) (consumer : String) : Prop :=
  ∃ record ∈ s.inbox.get id consumer, record.status = .completed

instance (s : ConsumeShared β) (id : Uuid) (consumer : String) :
    Decidable (Completed s id consumer) :=
  inferInstanceAs (Decidable (∃ record ∈ s.inbox.get id consumer, record.status = .completed))

/-- A run of the handler. -/
def IsHandle : ConsumeEvent → Prop
  | ⟨_, .handle _, _⟩ => True
  | _ => False

/-- The operation marks a failure. -/
def MarksFailure : ConsumeOp → Prop
  | .markFailed _ _ _ => True
  | _ => False

instance : DecidablePred MarksFailure
  | .markFailed _ _ _ => .isTrue trivial
  | .beginProcessing _ _ | .handle _ | .markCompleted _ _ | .decide _ _ | .deadLetter _ _ _
  | .ack _ | .nack _ _ => .isFalse id

/-- No failure is marked on a completed record. -/
def NoLateFailure (p : ConsumePool β) : Action ConsumeChoice κ → Prop
  | .arrive _ => True
  | .step i _ => ∀ t ∈ p.tasks[i]?, (∃ op ∈ t.rest.awaited, MarksFailure op) →
      ¬ Completed p.shared t.args.messageId t.args.consumer

instance (p : ConsumePool β) :
    ∀ action : Action ConsumeChoice κ, Decidable (NoLateFailure p action)
  | .arrive _ => .isTrue trivial
  | .step i _ => inferInstanceAs (Decidable (∀ t ∈ p.tasks[i]?, _))

/-- What a call does with a completed message. -/
def Skips : ConsumeEvent → Prop
  | ⟨_, .beginProcessing _ _, .ok .alreadyCompleted⟩ => True
  | ⟨_, .ack _, _⟩ => True
  | _ => False

variable {adapters : Adapters β κ} {s s' : ConsumeShared β} {p q : ConsumePool β}
  {choice : ConsumeChoice} {op : ConsumeOp} {reply : op.Reply} {t : ConsumeTask} {i : ℕ}
  {C : ConsumePool β → Action ConsumeChoice κ → Prop} {staleAfter : Duration} {epoch : Time}
  {outside : β} {id : Uuid} {consumer : String} {a : Call} {past : List ConsumeEvent}

/-- Only a marked failure takes a completed record back. -/
theorem Completed.serve (completed : Completed s id consumer)
    (served : serve adapters s choice op = some (s', reply))
    (noFailure : ∀ error, op ≠ .markFailed id consumer error) : Completed s' id consumer := by
  obtain ⟨record, found, status⟩ := completed
  rcases (serve_inbox served).get id consumer with same | ⟨absent, -⟩ |
    ⟨record', found', ⟨processing, -⟩ | ⟨-, written⟩ | ⟨error, rfl, -⟩⟩
  · exact ⟨record, same.trans found, status⟩
  · cases found.symm.trans absent
  · cases found.symm.trans found'
    cases status.symm.trans processing
  · exact ⟨_, written, rfl⟩
  · exact (noFailure error rfl).elim

/-- The call that acts does not mark a failure on a completed record. -/
theorem NoLateFailure.op_ne {next : op.Reply → ConsumeM ProcessResult}
    (side : NoLateFailure p (.step i choice : Action _ κ)) (found : p.tasks[i]? = some t)
    (rest : t.rest = .await op next) (awaits : Awaits t.args t.past op)
    (completed : Completed p.shared id consumer) : ∀ error, op ≠ .markFailed id consumer error := by
  rintro error rfl
  have marks : ∃ op ∈ t.rest.awaited, MarksFailure op := by
    rw [rest]
    exact ⟨_, rfl, trivial⟩
  generalize t.past = past at awaits
  cases awaits
  exact side t found marks completed

theorem completed_of_completes (served : serve adapters s choice op = some (s', reply))
    (completes : Completes id consumer ⟨choice, op, reply⟩) : Completed s' id consumer := by
  have step := serve_inbox served
  unfold Completed
  generalize s'.inbox = inbox' at step
  cases step
  case marksCompleted id' consumer' record found =>
      obtain ⟨rfl, rfl⟩ := completes
      exact ⟨_, InMemoryInboxStore.get_write_self, rfl⟩
  case foreign other =>
      cases op with
      | markCompleted id' consumer' => exact (other trivial).elim
      | _ => exact completes.elim
  all_goals exact completes.elim

/-- A call that only skipped so far begins or acks. -/
theorem Awaits.skips (awaits : Awaits a past op) (skipped : ∀ event ∈ past, Skips event) :
    (op = .beginProcessing a.messageId a.consumer ∧ past = []) ∨ op = .ack a.delivery := by
  cases awaits with
  | begins => exact .inl ⟨rfl, rfl⟩
  | duplicate choice => exact .inr rfl
  | contention choice => exact (skipped _ List.mem_cons_self).elim
  | handles choice decision runs =>
      have skip := skipped _ List.mem_cons_self
      rcases runs with rfl | rfl <;> exact skip.elim
  | completes choice before => exact .inr rfl
  | _ => exact (skipped _ List.mem_cons_self).elim

/-- The answer to a completed message. -/
theorem skips_of_completed (completed : Completed s a.messageId a.consumer)
    {reply : Except InboxError IdempotencyDecision}
    (served : serve adapters s choice (.beginProcessing a.messageId a.consumer) =
      some (s', reply)) :
    Skips ⟨choice, .beginProcessing a.messageId a.consumer, reply⟩ := by
  obtain ⟨record, found, status⟩ := completed
  have step := serve_inbox served
  generalize s'.inbox = inbox' at step
  cases step with
  | completed found' _ => trivial
  | vacant absent => cases found.symm.trans absent
  | leaseless error found' processing _ =>
      cases found.symm.trans found'
      cases status.symm.trans processing
  | held found' processing _ =>
      cases found.symm.trans found'
      cases status.symm.trans processing
  | takenOver found' processing _ =>
      cases found.symm.trans found'
      cases status.symm.trans processing
  | failed found' failed =>
      cases found.symm.trans found'
      cases status.symm.trans failed
  | foreign _ other => exact (other trivial).elim

/-- What some call completed is completed. -/
theorem completed_of_mem_trace
    (reached : (system adapters).Reaches NoLateFailure (initial staleAfter epoch outside) p) :
    ∀ entry ∈ p.trace, Completes id consumer entry.event → Completed p.shared id consumer := by
  refine reached.invariant (P := fun p : ConsumePool β =>
    ∀ entry ∈ p.trace, Completes id consumer entry.event → Completed p.shared id consumer) ?_ ?_
  · intro entry member
    cases member
  · intro q r action before all side stepped entry member completes
    obtain ⟨arrival, shared, args, rfl, arrived, rfl⟩ |
      ⟨i, choice, t, op, next, shared, reply, rfl, found, rest, served, rfl⟩ :=
      System.step_cases stepped
    · obtain ⟨out, -, same⟩ := Option.map_eq_some_iff.mp arrived
      cases same
      exact all entry member completes
    · rw [Pool.advance_trace, List.mem_append, List.mem_singleton] at member
      rcases member with old | rfl
      · have completed := all entry old completes
        have awaits := (awaits_of_reaches before found rest).1
        exact completed.serve served (NoLateFailure.op_ne side found rest awaits completed)
      · exact completed_of_completes served completes

/-- From a completed record on: it stays, and calls that begin later skip it. -/
structure Absorbed (p q : ConsumePool β) (id : Uuid) (consumer : String) : Prop where
  completed : Completed q.shared id consumer
  skipped : ∀ (j : ℕ) u, q.tasks[j]? = some u → u.args.messageId = id →
    u.args.consumer = consumer → (∀ t, p.tasks[j]? = some t → t.past = []) →
    ∀ event ∈ u.past, Skips event

theorem absorbed_of_reaches
    (reached : (system adapters).Reaches NoLateFailure (initial staleAfter epoch outside) p)
    (completed : Completed p.shared id consumer)
    (later : (system adapters).Reaches NoLateFailure p q) : Absorbed p q id consumer := by
  refine later.invariant (P := fun q => Absorbed p q id consumer) ⟨completed, ?_⟩ ?_
  · intro j u found _ _ unbegun event member
    rw [unbegun u found] at member
    cases member
  · intro q r action before absorbed side stepped
    obtain ⟨arrival, shared, args, rfl, arrived, rfl⟩ |
      ⟨i, choice, t, op, next, shared, reply, rfl, found, rest, served, rfl⟩ :=
      System.step_cases stepped
    · obtain ⟨out, -, same⟩ := Option.map_eq_some_iff.mp arrived
      cases same
      refine ⟨absorbed.completed, fun j u at_j => ?_⟩
      rcases Pool.getElem?_start at_j with old | ⟨-, a, -, rfl⟩
      · exact absorbed.skipped j u old
      · intro _ _ _ event member
        cases member
    · have awaits := (awaits_of_reaches (reached.trans before) found rest).1
      refine ⟨absorbed.completed.serve served
        (NoLateFailure.op_ne side found rest awaits absorbed.completed), fun j u at_j => ?_⟩
      rcases Pool.getElem?_advance found at_j with ⟨rfl, rfl⟩ | ⟨-, old⟩
      · intro sameId sameConsumer unbegun event member
        have skipped := absorbed.skipped j t found sameId sameConsumer unbegun
        rcases List.mem_cons.mp member with rfl | earlier
        · rcases awaits.skips skipped with ⟨rfl, -⟩ | rfl
          · have completed : Completed q.shared t.args.messageId t.args.consumer :=
              sameId ▸ sameConsumer ▸ absorbed.completed
            have answered : serve adapters q.shared choice
                (.beginProcessing t.args.messageId t.args.consumer) = some (shared, reply) := served
            exact skips_of_completed completed answered
          · trivial
        · exact skipped event earlier
      · exact absorbed.skipped j u old

/-- Completion is final, for every broker, dead-letter queue and interleaving, takeovers
included: in every run in which no failure is marked on a completed record, once some call's
`mark_completed` succeeded the record is and stays completed, and no call that begins later
is ever inside its handler or has run it. -/
theorem completed_absorbing
    (reached : (system adapters).Reaches NoLateFailure (initial staleAfter epoch outside) p)
    {entry : ConsumeEntry β} (happened : entry ∈ p.trace)
    (completes : Completes id consumer entry.event) :
    Completed p.shared id consumer ∧
    ∀ q, (system adapters).Reaches NoLateFailure p q → Completed q.shared id consumer ∧
      ∀ (j : ℕ) u, q.tasks[j]? = some u → u.args.messageId = id → u.args.consumer = consumer →
        (∀ t, p.tasks[j]? = some t → t.past = []) →
        ¬ InHandler u ∧ ∀ event ∈ u.past, ¬ IsHandle event := by
  have completed := completed_of_mem_trace reached entry happened completes
  refine ⟨completed, fun q later => ?_⟩
  have absorbed := absorbed_of_reaches reached completed later
  refine ⟨absorbed.completed, fun j u found sameId sameConsumer unbegun => ?_⟩
  have skipped := absorbed.skipped j u found sameId sameConsumer unbegun
  refine ⟨fun inside => ?_, fun event member ran => ?_⟩
  · obtain ⟨choice, decision, runs, past, -⟩ :=
      past_of_inHandler (reached.trans later) found inside
    have skip := skipped _ (past ▸ List.mem_singleton_self _)
    rcases runs with rfl | rfl <;> exact skip.elim
  · have skip := skipped event member
    obtain ⟨choice, op, reply⟩ := event
    cases op with
    | handle delivery => exact skip.elim
    | _ => exact ran.elim

end Completed

/-- The first copy is processed up to its completion. -/
def processed : List (Action ConsumeChoice BrokerArrival) :=
  publishes 2 ++ [take, .step 0 {}, .step 0 {}, .step 0 {}]

/-- The second copy is acked as a duplicate. -/
def duplicate : List (Action ConsumeChoice BrokerArrival) :=
  [take, .step 1 {}, .step 1 {}, .step 0 {}]

theorem completed_absorbing_duplicate : ∃ p q : ConsumePool InMemoryOutside,
    (system (inMemory threeAttempts)).Reaches NoLateFailure (initial 10 0 {}) p ∧
    (system (inMemory threeAttempts)).Reaches NoLateFailure p q ∧
    Completed q.shared 1 "billing" ∧
    ∃ u : ConsumeTask, q.tasks[1]? = some u ∧ u.Finished ∧ ∀ event ∈ u.past, ¬ IsHandle event := by
  have run : (((system (inMemory threeAttempts)).exec (initial 10 0 {}) processed).any fun p =>
      decide (p.tasks.length = 1 ∧ ∃ entry ∈ p.trace, Completes 1 "billing" entry.event) &&
        (decide ((system (inMemory threeAttempts)).Along NoLateFailure p duplicate) &&
          ((system (inMemory threeAttempts)).exec p duplicate).any fun q =>
            q.tasks[1]?.any fun u => decide (u.Finished ∧ u.args.messageId = 1 ∧
              u.args.consumer = "billing"))) = true := by
    decide +kernel
  obtain ⟨p, reached, found⟩ := System.exists_reaches_of_exec
    (C := NoLateFailure) (by decide +kernel) run
  simp only [Bool.and_eq_true, Option.any_eq_true, decide_eq_true_eq] at found
  obtain ⟨⟨single, entry, happened, completes⟩, along, q, ran, u, at_, finished, sameId, sameName⟩ :=
    found
  have later := System.reaches_of_exec along ran
  obtain ⟨completed, skipped⟩ := (completed_absorbing reached happened completes).2 q later
  refine ⟨p, q, reached, later, completed, u, at_, finished, ?_⟩
  refine (skipped 1 u at_ sameId sameName fun t found => ?_).2
  have bound := (List.getElem?_eq_some_iff.mp found).1
  omega

/-- The first call loses its claim to the second, which completes the message. -/
def overtaken : List (Action ConsumeChoice BrokerArrival) :=
  publishes 3 ++ [take, .step 0 {}, take, .step 1 { read := 10, now := 10 }, .step 1 {},
    .step 1 { now := 11 }]

/-- The first call fails; the third copy is processed. -/
def failsLate : List (Action ConsumeChoice BrokerArrival) :=
  [.step 0 { handled := .error "declined" }, .step 0 { now := 12 }, take,
    .step 2 { read := 13, now := 13 }]

/-- A late failure takes the completion back, and the handler runs again. -/
theorem completed_overwritten : ∃ p q : ConsumePool InMemoryOutside,
    (system (inMemory threeAttempts)).Reaches System.Any (initial 10 0 {}) p ∧
    (∃ entry ∈ p.trace, Completes 1 "billing" entry.event) ∧
    (system (inMemory threeAttempts)).Reaches System.Any p q ∧
    ¬ Completed q.shared 1 "billing" ∧ p.tasks[2]? = none ∧
    ∃ u : ConsumeTask, q.tasks[2]? = some u ∧ u.args.messageId = 1 ∧ u.args.consumer = "billing" ∧
      InHandler u := by
  have run : (((system (inMemory threeAttempts)).exec (initial 10 0 {}) overtaken).any fun p =>
      decide ((∃ entry ∈ p.trace, Completes 1 "billing" entry.event) ∧ p.tasks.length = 2) &&
        ((system (inMemory threeAttempts)).exec p failsLate).any fun q =>
          decide (¬ Completed q.shared 1 "billing") && q.tasks[2]?.any fun u =>
            decide (u.args.messageId = 1 ∧ u.args.consumer = "billing" ∧ InHandler u)) = true := by
    decide +kernel
  obtain ⟨p, reached, found⟩ := System.exists_reaches_of_exec
    (C := System.Any) (System.along_any _ _ _) run
  simp only [Bool.and_eq_true, Option.any_eq_true, decide_eq_true_eq] at found
  obtain ⟨⟨happened, two⟩, q, ran, overwritten, u, at_, sameId, sameName, inside⟩ := found
  exact ⟨p, q, reached, happened, System.reaches_of_exec (System.along_any _ _ _) ran, overwritten,
    List.getElem?_eq_none (le_of_eq two), u, at_, sameId, sameName, inside⟩

end Consumer

end Pharos

import Pharos.Async.Control
import Pharos.Saga.Runner

/-!
# Rounds of the saga runner

What the runner does with one transition, whatever it is answered: it reads the clock, saves once,
and enqueues the commands if the save succeeded.  `applyTransition_obeys` says so about every past
that such a round can leave behind, and what it reports.
-/

namespace Pharos

open Async

variable {I St E C ε : Type}

namespace SagaTransition

/-- `matches!(transition, SagaTransition::Start { .. })`. -/
def isStart : SagaTransition St C → Bool
  | .start _ _ _ => true
  | _ => false

/-- What a transition of `current` persists at `now`. -/
def written (id : I) (current : Option (SagaInstance I St)) (now : Time) :
    SagaTransition St C → Option (SagaInstance I St)
  | .ignore => none
  | .start state _ deadline => some { SagaInstance.running id state now with deadline := deadline }
  | .advance state _ deadline =>
      some { current.getD (.running id state now) with
        state := state, status := .running, deadline := deadline, updatedAt := now }
  | .complete state _ =>
      some { current.getD (.running id state now) with
        state := state, status := .completed, deadline := none, updatedAt := now }
  | .fail _ _ =>
      current.map fun inst => { inst with status := .failed, deadline := none, updatedAt := now }

/-- What is reported once the commands are enqueued: a failure reports itself. -/
def outcome : SagaTransition St C → SagaRunner.RunnerResult ε Unit → SagaRunner.RunnerResult ε Unit
  | .fail reason _, .ok () => .error (.failed reason)
  | _, result => result

end SagaTransition

namespace SagaRunner

/-- The operations around a save: the clock, new ids and the outbox. -/
def Mails : SagaOp I St E → Prop
  | .utcNow | .nowV7 | .insert _ => True
  | _ => False

/-- The outbox refused a message. -/
def Refused : SagaEvent I St E C ε → Prop
  | ⟨_, .insert _, .error _⟩ => True
  | _ => False

/-- The message that an insert put into the outbox. -/
def acceptedMessage : SagaEvent I St E C ε → Option Message
  | ⟨_, .insert message, .ok ()⟩ => some message.message
  | _ => none

/-- The messages that the outbox accepted, in order; the latest event comes first. -/
def accepted (events : List (SagaEvent I St E C ε)) : List Message :=
  (events.filterMap acceptedMessage).reverse

/-- `mail` is what enqueueing `commands` did: all were accepted, or one was refused. -/
inductive Enqueued (runner : SagaRunner I St E C ε) (commands : List C)
    (mail : List (SagaEvent I St E C ε)) : RunnerResult ε Unit → Prop
  | all (sent : accepted mail = commands.map runner.mapCommand)
      (whole : ∀ event ∈ mail, ¬ Refused event) : Enqueued runner commands mail (.ok ())
  | refused {event : SagaEvent I St E C ε} (member : event ∈ mail) (refusal : Refused event)
      (error : OutboxError) : Enqueued runner commands mail (.error (.enqueue error))

/-- A round of `apply_transition` did `events`, the latest first, and reported the result. -/
inductive Applied (runner : SagaRunner I St E C ε) (id : I) (current : Option (SagaInstance I St))
    (transition : SagaTransition St C) :
    List (SagaEvent I St E C ε) → RunnerResult ε Unit → Prop
  | ignored (nothing : transition = .ignore) : Applied runner id current transition [] (.ok ())
  | lost {clocks : List (SagaEvent I St E C ε)} {now : Time} {inst : SagaInstance I St}
      (read : ∀ event ∈ clocks, event.op = .utcNow)
      (writes : transition.written id current now = some inst) (choice : SagaChoice I)
      (error : SagaSaveError InMemorySagaStoreError) :
      Applied runner id current transition (⟨choice, .save inst, .error error⟩ :: clocks)
        (.error (.fromSaveError error))
  | saved {clocks mail : List (SagaEvent I St E C ε)} {now : Time} {inst : SagaInstance I St}
      {result : RunnerResult ε Unit} (read : ∀ event ∈ clocks, event.op = .utcNow)
      (writes : transition.written id current now = some inst) (choice : SagaChoice I)
      (mailed : ∀ event ∈ mail, Mails event.op)
      (enqueued : runner.Enqueued transition.commands mail result) :
      Applied runner id current transition (mail ++ ⟨choice, .save inst, .ok ()⟩ :: clocks)
        (transition.outcome result)
  | unrecorded {mail : List (SagaEvent I St E C ε)} {result : RunnerResult ε Unit}
      (nothing : ∀ now, transition.written id current now = none)
      (mailed : ∀ event ∈ mail, Mails event.op)
      (enqueued : runner.Enqueued transition.commands mail result) :
      Applied runner id current transition mail (transition.outcome result)

/-- Only a start writes a version that was not read. -/
theorem version_of_written {id : I} {current : Option (SagaInstance I St)} {now : Time}
    {inst : SagaInstance I St} (transition : SagaTransition St C)
    (writes : transition.written id current now = some inst) (same : ∀ c ∈ current, c.id = id)
    (continues : transition.isStart → current = none) :
    inst.id = id ∧ inst.version = current.elim 0 SagaInstance.version := by
  cases transition with
  | ignore => cases writes
  | start state commands deadline =>
      cases writes
      rw [continues rfl]
      exact ⟨rfl, rfl⟩
  | advance state commands deadline | complete state commands =>
      cases writes
      cases current with
      | none => exact ⟨rfl, rfl⟩
      | some c => exact ⟨same c rfl, rfl⟩
  | fail reason commands =>
      cases current with
      | none => cases writes
      | some c =>
          cases writes
          exact ⟨same c rfl, rfl⟩

/-- Enqueueing does not report a conflict. -/
theorem Enqueued.outcome_ne_conflict {runner : SagaRunner I St E C ε} {commands : List C}
    {mail : List (SagaEvent I St E C ε)} {result : RunnerResult ε Unit}
    (enqueued : runner.Enqueued commands mail result) (transition : SagaTransition St C)
    (expected : ℕ) (actual : Option ℕ) :
    transition.outcome result ≠ .error (.conflict expected actual) := by
  cases enqueued with
  | all sent whole => cases transition <;> exact fun same => by cases same
  | refused member refusal error => cases transition <;> exact fun same => by cases same

variable {runner : SagaRunner I St E C ε} {past : List (SagaEvent I St E C ε)}
  {P : List (SagaEvent I St E C ε) → SagaOp I St E → Prop}

theorem accepted_append (later earlier : List (SagaEvent I St E C ε)) :
    accepted (later ++ earlier) = accepted earlier ++ accepted later := by
  unfold accepted
  rw [List.filterMap_append, List.reverse_append]

/-! ## The outbox -/

/-- Making the messages accepts none of them yet. -/
theorem newMessages_obeys (free : ∀ past op, Mails op → P past op) (messages : List Message) :
    (newMessages messages : RunnerM I St E C ε _).Obeys P
      (fun past' made => made.map OutboxMessage.message = messages ∧ ∃ mail, past' = mail ++ past ∧
        (∀ event ∈ mail, Mails event.op) ∧ (∀ event ∈ mail, ¬ Refused event) ∧ accepted mail = [])
      past := by
  induction messages generalizing past with
  | nil => exact ⟨rfl, [], rfl, fun _ h => (by cases h), fun _ h => (by cases h), rfl⟩
  | cons message messages ih =>
      unfold newMessages
      refine .call (S := sagaSignature I St E C ε) (free _ _ trivial) fun clock now => ?_
      refine .call (S := sagaSignature I St E C ε) (free _ _ trivial) fun ids id => ?_
      refine .bind ih fun past' made facts => ?_
      obtain ⟨images, mail, rfl, mailed, whole, none⟩ := facts
      refine ⟨by rw [List.map_cons, images]; rfl, mail ++ [⟨ids, .nowV7, id⟩, ⟨clock, .utcNow, now⟩],
        by simp, ?_, ?_, ?_⟩
      · simp only [List.forall_mem_append, List.forall_mem_cons]
        exact ⟨mailed, trivial, trivial, fun _ h => (by cases h)⟩
      · simp only [List.forall_mem_append, List.forall_mem_cons]
        exact ⟨whole, not_false, not_false, fun _ h => (by cases h)⟩
      · rw [accepted_append, none]
        rfl

/-- `insert_many` inserts the messages in order and stops at the first refusal. -/
theorem insertMany_obeys (free : ∀ past op, Mails op → P past op) (messages : List OutboxMessage) :
    (insertMany messages : RunnerM I St E C ε _).Obeys P
      (fun past' result => ∃ mail, past' = mail ++ past ∧ (∀ event ∈ mail, Mails event.op) ∧
        ((result = .ok () ∧ accepted mail = messages.map OutboxMessage.message ∧
            ∀ event ∈ mail, ¬ Refused event) ∨
          ∃ error, result = .error error ∧ ∃ event ∈ mail, Refused event))
      past := by
  induction messages generalizing past with
  | nil =>
      exact ⟨[], rfl, fun _ h => (by cases h), .inl ⟨rfl, rfl, fun _ h => (by cases h)⟩⟩
  | cons message messages ih =>
      unfold insertMany
      refine .call (S := sagaSignature I St E C ε) (free _ _ trivial) fun choice reply => ?_
      cases reply with
      | error error =>
          refine ⟨[⟨choice, .insert message, .error error⟩], rfl, ?_, .inr ⟨error, rfl, ?_⟩⟩
          · intro event member
            rw [List.mem_singleton.mp member]
            trivial
          · exact ⟨_, List.mem_singleton_self _, trivial⟩
      | ok _ =>
          refine Program.Obeys.mono ih fun past' result facts => ?_
          obtain ⟨mail, rfl, mailed, ended⟩ := facts
          refine ⟨mail ++ [⟨choice, .insert message, .ok ()⟩], by simp, ?_, ?_⟩
          · simp only [List.forall_mem_append, List.forall_mem_singleton]
            exact ⟨mailed, trivial⟩
          · rcases ended with ⟨done, sent, whole⟩ | ⟨error, stopped, event, member, refusal⟩
            · refine .inl ⟨done, ?_, ?_⟩
              · rw [accepted_append, sent]
                rfl
              · simp only [List.forall_mem_append, List.forall_mem_singleton]
                exact ⟨whole, not_false⟩
            · exact .inr ⟨error, stopped, event, List.mem_append_left _ member, refusal⟩

theorem enqueueAll_obeys (free : ∀ past op, Mails op → P past op) (commands : List C) :
    (runner.enqueueAll commands).Obeys P
      (fun past' result => ∃ mail, past' = mail ++ past ∧ (∀ event ∈ mail, Mails event.op) ∧
        runner.Enqueued commands mail result)
      past := by
  unfold enqueueAll
  rcases commands with _ | ⟨command, commands⟩
  · exact ⟨[], rfl, fun _ h => (by cases h), .all rfl fun _ h => (by cases h)⟩
  · refine .bind (newMessages_obeys free _) fun past' made facts => ?_
    obtain ⟨images, stamps, rfl, stamped, unrefused, none⟩ := facts
    refine .bind (insertMany_obeys free made) fun past' result facts => ?_
    obtain ⟨mail, rfl, mailed, ended⟩ := facts
    rcases ended with ⟨rfl, sent, whole⟩ | ⟨error, rfl, event, member, refusal⟩
    · refine ⟨mail ++ stamps, by simp, List.forall_mem_append.mpr ⟨mailed, stamped⟩, .all ?_ ?_⟩
      · rw [accepted_append, none, sent, images]
        rfl
      · exact List.forall_mem_append.mpr ⟨whole, unrefused⟩
    · exact ⟨mail ++ stamps, by simp, List.forall_mem_append.mpr ⟨mailed, stamped⟩,
        .refused (List.mem_append_left _ member) refusal error⟩

theorem compensate_obeys (free : ∀ past op, Mails op → P past op) (reason : String)
    (commands : List C) :
    (runner.compensate reason commands).Obeys P
      (fun past' result => ∃ mail, past' = mail ++ past ∧ (∀ event ∈ mail, Mails event.op) ∧
        ∃ sent, runner.Enqueued commands mail sent ∧
          result = (SagaTransition.fail reason commands : SagaTransition St C).outcome sent)
      past := by
  unfold compensate
  refine .bind (enqueueAll_obeys free commands) fun past' result facts => ?_
  obtain ⟨mail, rfl, mailed, enqueued⟩ := facts
  cases result with
  | error error => exact ⟨mail, rfl, mailed, _, enqueued, rfl⟩
  | ok _ => exact ⟨mail, rfl, mailed, _, enqueued, rfl⟩

/-! ## One transition -/

/-- The end of a round that saves `inst`: lost, or saved and followed by `next`. -/
theorem saveThen_obeys {id : I} {current : Option (SagaInstance I St)}
    {transition : SagaTransition St C} {clocks : List (SagaEvent I St E C ε)} (now : Time)
    {inst : SagaInstance I St} {next : RunnerM I St E C ε (RunnerResult ε Unit)}
    (read : ∀ event ∈ clocks, event.op = .utcNow)
    (writes : transition.written id current now = some inst) (ready : P (clocks ++ past) (.save inst))
    (mails : ∀ past, next.Obeys P
      (fun past' result => ∃ mail, past' = mail ++ past ∧ (∀ event ∈ mail, Mails event.op) ∧
        ∃ sent, runner.Enqueued transition.commands mail sent ∧ result = transition.outcome sent)
      past) :
    (saveThen inst next).Obeys P
      (fun past' result => ∃ round, past' = round ++ past ∧
        runner.Applied id current transition round result)
      (clocks ++ past) := by
  unfold saveThen
  refine .call (S := sagaSignature I St E C ε) ready fun choice reply => ?_
  cases reply with
  | error error => exact ⟨_, rfl, .lost read writes choice error⟩
  | ok _ =>
      refine (mails _).mono fun past' result facts => ?_
      obtain ⟨mail, rfl, mailed, sent, enqueued, rfl⟩ := facts
      exact ⟨mail ++ ⟨choice, .save inst, .ok ()⟩ :: clocks, by simp,
        .saved read writes choice mailed enqueued⟩

/-- One round of the runner, whatever it is answered. -/
theorem applyTransition_obeys {id : I} {current : Option (SagaInstance I St)}
    (transition : SagaTransition St C) (free : ∀ past op, Mails op → P past op)
    (ready : ∀ clocks now inst, (∀ event ∈ clocks, event.op = .utcNow) →
      transition.written id current now = some inst → P (clocks ++ past) (.save inst)) :
    (runner.applyTransition id current transition).Obeys P
      (fun past' result => ∃ round, past' = round ++ past ∧
        runner.Applied id current transition round result)
      past := by
  have enqueues : ∀ (transition : SagaTransition St C) past,
      (∀ result, transition.outcome (ε := ε) result = result) →
      (runner.enqueueAll transition.commands).Obeys P
        (fun past' result => ∃ mail, past' = mail ++ past ∧ (∀ event ∈ mail, Mails event.op) ∧
          ∃ sent, runner.Enqueued transition.commands mail sent ∧ result = transition.outcome sent)
        past := by
    intro transition past plain
    refine (enqueueAll_obeys free _).mono fun past' result facts => ?_
    obtain ⟨mail, rfl, mailed, enqueued⟩ := facts
    exact ⟨mail, rfl, mailed, result, enqueued, (plain result).symm⟩
  have one : ∀ (choice : SagaChoice I) (now : Time),
      ∀ event ∈ [(⟨choice, .utcNow, now⟩ : SagaEvent I St E C ε)], event.op = .utcNow := by
    intro choice now event member
    rw [List.mem_singleton.mp member]
  have two : ∀ (first second : SagaChoice I) (now later : Time),
      ∀ event ∈ [(⟨second, .utcNow, later⟩ : SagaEvent I St E C ε), ⟨first, .utcNow, now⟩],
        event.op = .utcNow := by
    intro first second now later event member
    rcases List.mem_cons.mp member with rfl | member
    · rfl
    · rw [List.mem_singleton.mp member]
  unfold applyTransition
  cases transition with
  | ignore => exact ⟨[], rfl, .ignored rfl⟩
  | start state commands deadline =>
      refine .call (S := sagaSignature I St E C ε) (free _ _ trivial) fun clock now => ?_
      exact saveThen_obeys now (one clock now) rfl (ready _ now _ (one clock now) rfl)
        fun past => enqueues (.start state commands deadline) past fun _ => rfl
  | advance state commands deadline =>
      unfold currentOrRunning
      cases current with
      | none =>
          refine .call (S := sagaSignature I St E C ε) (free _ _ trivial) fun clock now => ?_
          refine .call (S := sagaSignature I St E C ε) (free _ _ trivial) fun clock' now' => ?_
          exact saveThen_obeys now' (two clock clock' now now') rfl
            (ready _ now' _ (two clock clock' now now') rfl)
            fun past => enqueues (.advance state commands deadline) past fun _ => rfl
      | some inst =>
          refine .call (S := sagaSignature I St E C ε) (free _ _ trivial) fun clock now => ?_
          exact saveThen_obeys now (one clock now) rfl (ready _ now _ (one clock now) rfl)
            fun past => enqueues (.advance state commands deadline) past fun _ => rfl
  | complete state commands =>
      unfold currentOrRunning
      cases current with
      | none =>
          refine .call (S := sagaSignature I St E C ε) (free _ _ trivial) fun clock now => ?_
          refine .call (S := sagaSignature I St E C ε) (free _ _ trivial) fun clock' now' => ?_
          exact saveThen_obeys now' (two clock clock' now now') rfl
            (ready _ now' _ (two clock clock' now now') rfl)
            fun past => enqueues (.complete state commands) past fun _ => rfl
      | some inst =>
          refine .call (S := sagaSignature I St E C ε) (free _ _ trivial) fun clock now => ?_
          exact saveThen_obeys now (one clock now) rfl (ready _ now _ (one clock now) rfl)
            fun past => enqueues (.complete state commands) past fun _ => rfl
  | fail reason commands =>
      cases current with
      | none =>
          refine (compensate_obeys free reason commands).mono fun past' result facts => ?_
          obtain ⟨mail, rfl, mailed, sent, enqueued, rfl⟩ := facts
          exact ⟨mail, rfl, .unrecorded (fun _ => rfl) mailed enqueued⟩
      | some inst =>
          refine .call (S := sagaSignature I St E C ε) (free _ _ trivial) fun clock now => ?_
          exact saveThen_obeys now (one clock now) rfl (ready _ now _ (one clock now) rfl)
            fun past => compensate_obeys free reason commands

end SagaRunner

end Pharos

import Mathlib.Data.List.Induction
import Pharos.App.Service
import Pharos.Async.Record

/-!
# Publishing until everything is published

A session saves an aggregate once with `save_and_publish`; after that events are raised and
`republish_pending` is called, in any order and as often as one likes.  The repository and the bus
are the environment: what a save leaves behind and whether an event gets published are theirs to
say.

One batch publishes its events from the front until the bus refuses one, and restores the others
ahead of what is pending (`publishBatch_spec`).  So what was published, followed by what is pending,
is after every call everything that was raised, in the order it was raised in, and a call of which
the bus refuses nothing leaves nothing pending.
-/

namespace Pharos

open Async

variable {St E σ : Type}

/-- What the service awaits: the repository and the bus. -/
inductive ServiceOp (St E : Type) where
  | save (aggregate : Aggregate St E)
  | publish (event : E)

/-- The outcomes of a save and of a publish. -/
def ServiceOp.signature (St E : Type) : Signature where
  Op := ServiceOp St E
  Reply
    | .save _ => Aggregate St E × Except RepositoryError Unit
    | .publish _ => Except EventBusError Unit

/-- `Repository::save`. -/
def ServiceOp.saveM : SaveM (ServiceOp.signature St E) St E :=
  fun aggregate => Program.call (S := ServiceOp.signature St E) (.save aggregate)

/-- `EventBus::publish`. -/
def ServiceOp.publishM : PublishM (ServiceOp.signature St E) E :=
  fun event => Program.call (S := ServiceOp.signature St E) (.publish event)

/-- What happens to the aggregate once it is saved. -/
inductive Afterwards (E : Type) where
  | raise (event : E)
  | republish

/-- `AggregateEvents::raise`. -/
def Aggregate.raise (aggregate : Aggregate St E) (event : E) : Aggregate St E :=
  { aggregate with pending := aggregate.pending ++ [event] }

/-- The calls after the save, with the outcome of the latest call of the service. -/
def afterwards : List (Afterwards E) → Aggregate St E × Except ApplicationError Unit →
    Program (ServiceOp.signature St E) (Aggregate St E × Except ApplicationError Unit)
  | [], (aggregate, outcome) => pure (aggregate, outcome)
  | .raise event :: calls, (aggregate, outcome) => afterwards calls (aggregate.raise event, outcome)
  | .republish :: calls, (aggregate, _) => do
      let after ← republishPending ServiceOp.publishM aggregate
      afterwards calls after

/-- One `save_and_publish`, then any calls. -/
def session (aggregate : Aggregate St E) (calls : List (Afterwards E)) :
    Program (ServiceOp.signature St E) (Aggregate St E × Except ApplicationError Unit) := do
  let after ← saveAndPublish ServiceOp.saveM ServiceOp.publishM aggregate
  afterwards calls after

/-- The event that a call raises. -/
def Afterwards.raised? : Afterwards E → Option E
  | .raise event => some event
  | .republish => none

/-- The events raised by the calls, in order. -/
def raised (calls : List (Afterwards E)) : List E := calls.filterMap Afterwards.raised?

/-- The event of a publish that succeeded. -/
def ServiceOp.published? : (op : ServiceOp St E) → (ServiceOp.signature St E).Reply op → Option E
  | .publish event, .ok () => some event
  | _, _ => none

/-- The events that were published successfully, in order. -/
def published (trace : List (Performed (ServiceOp.signature St E))) : List E :=
  trace.filterMap fun performed => ServiceOp.published? performed.op performed.reply

/-- The aggregate handed to a save. -/
def ServiceOp.saved? : ServiceOp St E → Option (Aggregate St E)
  | .save aggregate => some aggregate
  | .publish _ => none

/-- The aggregates handed to the repository, in order. -/
def saves (trace : List (Performed (ServiceOp.signature St E))) : List (Aggregate St E) :=
  trace.filterMap fun performed => ServiceOp.saved? performed.op

/-- What the repository makes of an aggregate. -/
def savedBy (env : Environment (ServiceOp.signature St E) σ) (s : σ) (aggregate : Aggregate St E) :
    Aggregate St E × Except RepositoryError Unit :=
  (env s (.save aggregate)).2

/-- What a repository may do to the pending events: a successful save drains them or keeps them, and
a failed one never discards them. -/
def KeepsOrDrains (env : Environment (ServiceOp.signature St E) σ) : Prop :=
  ∀ s aggregate, (savedBy env s aggregate).1.pending = aggregate.pending ∨
    (savedBy env s aggregate).2 = .ok () ∧ (savedBy env s aggregate).1.pending = []

section Republish

variable {env : Environment (ServiceOp.signature St E) σ} {s : σ} {aggregate : Aggregate St E}

theorem published_append (first second : List (Performed (ServiceOp.signature St E))) :
    published (first ++ second) = published first ++ published second :=
  List.filterMap_append

theorem saves_append (first second : List (Performed (ServiceOp.signature St E))) :
    saves (first ++ second) = saves first ++ saves second :=
  List.filterMap_append

/-- How a batch ends: all of it is published, or the bus refuses the first of the events that are
kept. -/
inductive BatchEnd : List E → List (Performed (ServiceOp.signature St E)) →
    Except ApplicationError Unit → Prop
  | published : BatchEnd [] [] (.ok ())
  | refused (event : E) (remaining : List E) (error : EventBusError) :
    BatchEnd (event :: remaining) [⟨.publish event, .error error⟩] (.error (.eventBus error))

/-- A publish that the bus accepts. -/
def ServiceOp.accepted (event : E) : Performed (ServiceOp.signature St E) :=
  ⟨.publish event, .ok ()⟩

/-- The bus is offered `events` one at a time and from the front until it refuses one; that one and
those behind it are kept. -/
def Offered (events : List E) (trace : List (Performed (ServiceOp.signature St E))) (kept : List E)
    (outcome : Except ApplicationError Unit) : Prop :=
  ∃ accepted refusal, events = accepted ++ kept ∧
    trace = accepted.map ServiceOp.accepted ++ refusal ∧ BatchEnd kept refusal outcome

/-- A bus that accepts every event. -/
def AcceptsAll (env : Environment (ServiceOp.signature St E) σ) : Prop :=
  ∀ s event, (env s (.publish event)).2 = .ok ()

section Offers

variable {events kept : List E} {trace : List (Performed (ServiceOp.signature St E))}
  {outcome : Except ApplicationError Unit}

theorem published_accepted (accepted : List E) :
    published (accepted.map ServiceOp.accepted : List (Performed (ServiceOp.signature St E))) =
      accepted := by
  induction accepted with
  | nil => rfl
  | cons event accepted ih => exact congrArg (event :: ·) ih

theorem saves_accepted (accepted : List E) :
    saves (accepted.map ServiceOp.accepted : List (Performed (ServiceOp.signature St E))) = [] := by
  induction accepted with
  | nil => rfl
  | cons event accepted ih => exact ih

namespace Offered

theorem split (offered : Offered events trace kept outcome) :
    events = published trace ++ kept := by
  obtain ⟨accepted, refusal, rfl, rfl, ending⟩ := offered
  have none : published refusal = [] := by cases ending <;> rfl
  rw [published_append, published_accepted, none, List.append_nil]

theorem saves_eq_nil (offered : Offered events trace kept outcome) : saves trace = [] := by
  obtain ⟨accepted, refusal, rfl, rfl, ending⟩ := offered
  have none : saves refusal = [] := by cases ending <;> rfl
  rw [saves_append, saves_accepted, none, List.append_nil]

/-- A batch is a success exactly if nothing of it is kept. -/
theorem ok_iff (offered : Offered events trace kept outcome) : outcome = .ok () ↔ kept = [] := by
  obtain ⟨accepted, refusal, -, -, ending⟩ := offered
  cases ending with
  | published => simp
  | refused event remaining error => simp

/-- A bus that accepts everything leaves nothing of a batch behind. -/
theorem kept_eq_nil {env : Environment (ServiceOp.signature St E) σ} (accepts : AcceptsAll env)
    (answered : ∀ performed ∈ trace, ∃ s, (env s performed.op).2 = performed.reply)
    (offered : Offered events trace kept outcome) : kept = [] := by
  obtain ⟨accepted, refusal, -, rfl, ending⟩ := offered
  cases ending with
  | published => rfl
  | refused event remaining error =>
      obtain ⟨s, refused⟩ := answered _ (List.mem_append_right _ List.mem_cons_self)
      cases (accepts s event).symm.trans refused

end Offered

end Offers

/-- What a batch did to the aggregate. -/
structure BatchSpec (aggregate : Aggregate St E) (events : List E)
    (run : Recorded (ServiceOp.signature St E) σ (Aggregate St E × Except ApplicationError Unit)) :
    Prop where
  offered : ∃ kept, Offered events run.trace kept run.value.2 ∧
    run.value.1.pending = kept ++ aggregate.pending
  version : run.value.1.version = aggregate.version

/-- A publish, recorded. -/
theorem record_publishM (event : E) {α : Type}
    (next : Except EventBusError Unit → Program (ServiceOp.signature St E) α) :
    (ServiceOp.publishM event >>= next).record env s =
      ((next (env s (.publish event)).2).record env (env s (.publish event)).1).preceded
        [⟨.publish event, (env s (.publish event)).2⟩] := rfl

/-- A batch publishes its events from the front until the bus refuses one, and restores that one and
those behind it ahead of what is pending. -/
theorem publishBatch_spec (events : List E) (aggregate : Aggregate St E)
    (env : Environment (ServiceOp.signature St E) σ) (s : σ) :
    BatchSpec aggregate events ((publishBatch ServiceOp.publishM aggregate events).record env s) := by
  induction events generalizing s with
  | nil => exact ⟨⟨[], ⟨[], [], rfl, rfl, .published⟩, rfl⟩, rfl⟩
  | cons event remaining ih =>
      rw [publishBatch, record_publishM]
      cases (env s (.publish event)).2 with
      | error error =>
          exact ⟨⟨event :: remaining, ⟨[], _, rfl, rfl, .refused event remaining error⟩, rfl⟩, rfl⟩
      | ok _ =>
          obtain ⟨⟨kept, ⟨accepted, refusal, split, trace, ending⟩, restored⟩, version⟩ := ih _
          exact ⟨⟨kept, ⟨event :: accepted, refusal, congrArg (event :: ·) split,
            congrArg (ServiceOp.accepted event :: ·) trace, ending⟩, restored⟩, version⟩

/-- A republish drains what is pending and offers it to the bus. -/
theorem republishPending_spec (aggregate : Aggregate St E)
    (env : Environment (ServiceOp.signature St E) σ) (s : σ) :
    BatchSpec { aggregate with pending := [] } aggregate.pending
      ((republishPending ServiceOp.publishM aggregate).record env s) :=
  publishBatch_spec aggregate.pending _ env s

/-- The calls one after the other. -/
theorem afterwards_append (first second : List (Afterwards E))
    (start : Aggregate St E × Except ApplicationError Unit) :
    afterwards (first ++ second) start = afterwards first start >>= afterwards second := by
  induction first generalizing start with
  | nil => rfl
  | cons call calls ih =>
      cases call with
      | raise event => exact ih _
      | republish =>
          show (republishPending ServiceOp.publishM start.1 >>= afterwards (calls ++ second)) =
            (republishPending ServiceOp.publishM start.1 >>= afterwards calls) >>= afterwards second
          rw [Program.bind_assoc]
          exact congrArg (republishPending ServiceOp.publishM start.1 >>= ·) (funext ih)

/-- What one call did after `before`: an event that is raised waits behind the others, and a republish
offers everything that is pending. -/
def Afterwards.Did
    (before after :
      Recorded (ServiceOp.signature St E) σ (Aggregate St E × Except ApplicationError Unit)) :
    Afterwards E → Prop
  | .raise event =>
      after.trace = before.trace ∧ after.value = (before.value.1.raise event, before.value.2)
  | .republish =>
      after.value.1.version = before.value.1.version ∧
        ∃ batch, after.trace = before.trace ++ batch ∧
          Offered before.value.1.pending batch after.value.1.pending after.value.2

/-- What the save and its batch did: after a save that failed nothing is offered to the bus. -/
inductive SaveDid (aggregate : Aggregate St E)
    (saved : Aggregate St E × Except RepositoryError Unit) :
    List (Performed (ServiceOp.signature St E)) →
      Aggregate St E × Except ApplicationError Unit → Prop
  | failed {error : RepositoryError} :
    saved.2 = .error error →
    SaveDid aggregate saved [⟨.save aggregate, saved⟩] (saved.1, .error (mapRepositoryError error))
  | offered {batch : List (Performed (ServiceOp.signature St E))} {after : Aggregate St E}
    {outcome : Except ApplicationError Unit} :
    saved.2 = .ok () → after.version = saved.1.version →
    Offered aggregate.pending batch after.pending outcome →
    SaveDid aggregate saved (⟨.save aggregate, saved⟩ :: batch) (after, outcome)

/-- A save, recorded. -/
theorem record_saveM (aggregate : Aggregate St E) {α : Type}
    (next : Aggregate St E × Except RepositoryError Unit → Program (ServiceOp.signature St E) α) :
    (ServiceOp.saveM aggregate >>= next).record env s =
      ((next (savedBy env s aggregate)).record env (env s (.save aggregate)).1).preceded
        [⟨.save aggregate, savedBy env s aggregate⟩] := rfl

/-- A session without further calls. -/
theorem session_nil (aggregate : Aggregate St E) :
    session aggregate [] = saveAndPublish ServiceOp.saveM ServiceOp.publishM aggregate :=
  Program.bind_pure _

/-- One more call of a session goes on from where the session was. -/
theorem record_session_concat (aggregate : Aggregate St E) (calls : List (Afterwards E))
    (call : Afterwards E) :
    (session aggregate (calls ++ [call])).record env s =
      ((afterwards [call] ((session aggregate calls).record env s).value).record env
        ((session aggregate calls).record env s).state).preceded
          ((session aggregate calls).record env s).trace := by
  have last : session aggregate (calls ++ [call]) = session aggregate calls >>= afterwards [call] := by
    rw [session, session, Program.bind_assoc]
    exact congrArg (_ >>= ·) (funext (afterwards_append calls [call]))
  rw [last, Program.record_bind]

theorem saveDid_of_session (aggregate : Aggregate St E) (s : σ) :
    SaveDid aggregate (savedBy env s aggregate) ((session aggregate []).record env s).trace
      ((session aggregate []).record env s).value := by
  rw [session_nil, saveAndPublish, record_saveM]
  generalize savedBy env s aggregate = saved
  obtain ⟨after, outcome⟩ := saved
  cases outcome with
  | error error => exact .failed rfl
  | ok _ =>
      -- the buffer is drained whatever the repository did with it
      obtain ⟨⟨kept, offered, restored⟩, version⟩ :=
        publishBatch_spec aggregate.pending after.drainEvents.1 env (env s (.save aggregate)).1
      have pending : _ = kept := restored.trans (List.append_nil kept)
      exact .offered rfl version (pending ▸ offered)

theorem did_of_session (aggregate : Aggregate St E) (calls : List (Afterwards E))
    (call : Afterwards E) :
    call.Did ((session aggregate calls).record env s)
      ((session aggregate (calls ++ [call])).record env s) := by
  rw [record_session_concat]
  generalize (session aggregate calls).record env s = before
  cases call with
  | raise event => exact ⟨List.append_nil _, rfl⟩
  | republish =>
      obtain ⟨⟨kept, offered, restored⟩, version⟩ :=
        republishPending_spec before.value.1 env before.state
      have once : afterwards [Afterwards.republish] before.value =
          republishPending ServiceOp.publishM before.value.1 := Program.bind_pure _
      have pending : _ = kept := restored.trans (List.append_nil kept)
      rw [once]
      exact ⟨version, _, rfl, pending ▸ offered⟩

end Republish

/-! ## Whole sessions -/

section Sessions

variable {env : Environment (ServiceOp.signature St E) σ} {s : σ} {aggregate : Aggregate St E}
  {before after :
    Recorded (ServiceOp.signature St E) σ (Aggregate St E × Except ApplicationError Unit)}

theorem raised_append (first second : List (Afterwards E)) :
    raised (first ++ second) = raised first ++ raised second :=
  List.filterMap_append

/-- What a run published and what is pending at its end account for `events`, and it saved
`aggregate` at `version`. -/
structure Accounted (aggregate : Aggregate St E) (events : List E) (version : ℕ)
    (run : Recorded (ServiceOp.signature St E) σ (Aggregate St E × Except ApplicationError Unit)) :
    Prop where
  order : published run.trace ++ run.value.1.pending = events
  saves : saves run.trace = [aggregate]
  version : run.value.1.version = version

/-- The save accounts for what was pending before it. -/
theorem SaveDid.accounted {saved : Aggregate St E × Except RepositoryError Unit}
    (kept : saved.1.pending = aggregate.pending ∨ saved.2 = .ok () ∧ saved.1.pending = [])
    (did : SaveDid aggregate saved after.trace after.value) :
    Accounted aggregate aggregate.pending saved.1.version after := by
  obtain ⟨trace, state, value⟩ := after
  cases did with
  | failed failed =>
      rcases kept with kept | ⟨fine, -⟩
      · exact ⟨kept, rfl, rfl⟩
      · cases failed.symm.trans fine
  | offered saved version offered =>
      exact ⟨offered.split.symm, congrArg (aggregate :: ·) offered.saves_eq_nil, version⟩

/-- A call keeps the account, with the event that it raises. -/
theorem Afterwards.Did.accounted {call : Afterwards E} {events : List E} {version : ℕ}
    (account : Accounted aggregate events version before) (did : call.Did before after) :
    Accounted aggregate (events ++ raised [call]) version after := by
  obtain ⟨order, once, same⟩ := account
  obtain ⟨trace, state, value⟩ := after
  cases call with
  | raise event =>
      obtain ⟨rfl, rfl⟩ := did
      refine ⟨?_, once, same⟩
      rw [← order, List.append_assoc]
      rfl
  | republish =>
      obtain ⟨kept, batch, rfl, offered⟩ := did
      refine ⟨?_, ?_, kept.trans same⟩
      · calc published (before.trace ++ batch) ++ value.1.pending
            = published before.trace ++ (published batch ++ value.1.pending) := by
              rw [published_append, List.append_assoc]
          _ = events ++ raised [.republish] := by
              rw [← offered.split, order]
              exact (List.append_nil events).symm
      · show saves (before.trace ++ batch) = [aggregate]
        rw [saves_append, once, offered.saves_eq_nil]
        rfl

/-- Every session accounts for what was pending and for what was raised. -/
theorem accounted_of_session (repository : KeepsOrDrains env) (aggregate : Aggregate St E)
    (calls : List (Afterwards E)) (s : σ) :
    Accounted aggregate (aggregate.pending ++ raised calls) (savedBy env s aggregate).1.version
      ((session aggregate calls).record env s) := by
  induction calls using List.reverseRecOn with
  | nil =>
      have saved := (saveDid_of_session aggregate s).accounted (repository s aggregate)
      exact (List.append_nil aggregate.pending).symm ▸ saved
  | append_singleton calls call ih =>
      rw [raised_append, ← List.append_assoc]
      exact (did_of_session aggregate calls call).accounted ih

/-- The session ends with a call that publishes: a save that succeeded, or a republish. -/
def EndsPublishing (saved : Except RepositoryError Unit) (calls : List (Afterwards E)) : Prop :=
  saved = .ok () ∧ calls = [] ∨ ∃ earlier, calls = earlier ++ [.republish]

/-- The last batch of such a session is part of its record. -/
theorem EndsPublishing.offered {calls : List (Afterwards E)}
    (ends : EndsPublishing (savedBy env s aggregate).2 calls) :
    ∃ events batch, Offered events batch ((session aggregate calls).record env s).value.1.pending
        ((session aggregate calls).record env s).value.2 ∧
      batch ⊆ ((session aggregate calls).record env s).trace := by
  rcases ends with ⟨fine, rfl⟩ | ⟨earlier, rfl⟩
  · have did : SaveDid aggregate (savedBy env s aggregate) _ _ := saveDid_of_session aggregate s
    generalize (session aggregate []).record env s = run at did ⊢
    obtain ⟨trace, state, value⟩ := run
    cases did with
    | failed failed => cases failed.symm.trans fine
    | offered saved version offered => exact ⟨_, _, offered, List.subset_cons_self _ _⟩
  · have did : Afterwards.Did ((session aggregate earlier).record env s) _ .republish :=
      did_of_session aggregate earlier .republish
    obtain ⟨-, batch, trace, offered⟩ := did
    exact ⟨_, batch, offered, trace ▸ List.subset_append_right _ _⟩

end Sessions

/-- A repository that keeps the buffer, and a bus that fails on every other publish. -/
def flakyService : Environment (ServiceOp.signature Unit ℕ) ℕ
  | s, .save aggregate => (s, ({ aggregate with version := aggregate.version + 1 }, .ok ()))
  | s, .publish _ => (s + 1, if s % 2 = 0 then .ok () else .error (.handlerError "Ping" "boom"))

end Pharos

import Pharos.App.Delivery
import Pharos.Messaging.Inbox

/-!
# Handlers that retry and dead-letter

`pharos-app/src/resilience.rs`: `Retrying` runs a failing handler again under a `RetryPolicy`, and
`DeadLettering` parks the event on a dead-letter queue once the inner handler has failed.  Both
wrap any handler.

A bus whose handlers are wrapped dead-letter-outermost settles an event handler by handler: each
one handles it within its budget, or the event is parked for it, or the queue refuses and only
then is an error reported (`publish_settles`).
-/

namespace Pharos

open Async Application

/-- Error returned by `DeadLettering` when parking the event itself fails. -/
structure DeadLetteringError where
  handlerError : String
  deadLetterError : DeadLetterError

/-- The `Display` text. -/
def DeadLetterError.toText : DeadLetterError → String
  | .storage source => "dead-letter queue failed: " ++ source

/-- The `Display` text. -/
def DeadLetteringError.toText (error : DeadLetteringError) : String :=
  "handler failed (" ++ error.handlerError ++ ") and dead-lettering also failed: " ++
    error.deadLetterError.toText

variable (app : Application)

/-- What a decorated handler awaits: the code of the application, what an exponential backoff
draws, the timer, the mapping of the event, the clock and the queue. -/
inductive ResilienceOp where
  | app (op : app.Op)
  | delayFor
  | sleep (delay : Duration)
  | mapEvent (event : app.Any)
  | nowV7
  | utcNow
  | deadLetter (message : DeadLetterMessage)

namespace Application

/-- What each of them returns. -/
def resilience : Signature where
  Op := ResilienceOp app
  Reply
    | .app op => app.signature.Reply op
    | .delayFor => Duration
    | .sleep _ => Unit
    | .mapEvent _ => Message
    | .nowV7 => Uuid
    | .utcNow => Time
    | .deadLetter _ => Except DeadLetterError Unit

variable {app}

/-- A program that awaits one of them. -/
def await (op : ResilienceOp app) : Program app.resilience (app.resilience.Reply op) :=
  Program.call (S := app.resilience) op

end Application

variable {app} {type : app.TypeId} {ε σ : Type}

/-- `Retrying`: the rest of its loop, at an attempt. -/
def Retrying.loop (policy : RetryPolicy) (inner : Program app.resilience (Except ε Unit))
    (attempt : ℕ) : Program app.resilience (Except ε Unit) := do
  match ← inner with
  | .ok () => pure (.ok ())
  | .error error =>
    -- `RetryPolicy::decide`, which draws a delay only when it retries
    if attempt < policy.maxAttempts then
      let drawn ← await .delayFor
      await (.sleep (policy.backoff.delayFor drawn))
      Retrying.loop policy inner (attempt + 1)
    else pure (.error error)
termination_by policy.maxAttempts - attempt

/-- `Retrying::handle`, over what the inner handler does with the event. -/
def Retrying.handle (policy : RetryPolicy) (inner : Program app.resilience (Except ε Unit)) :
    Program app.resilience (Except ε Unit) :=
  Retrying.loop policy inner 1

/-- `DeadLettering::handle`, over what the inner handler does with the event. -/
def DeadLettering.handle (topic : String) (inner : Program app.resilience (Except String Unit))
    (event : app.Event type) : Program app.resilience (Except DeadLetteringError Unit) := do
  match ← inner with
  | .ok () => pure (.ok ())
  | .error error =>
    let message ← await (.mapEvent ⟨type, event⟩)
    let id ← await .nowV7
    let now ← await .utcNow
    match ← await (.deadLetter (.new id now { message with topic := topic } error 1)) with
    | .error deadLetterError => pure (.error ⟨error, deadLetterError⟩)
    | .ok () => pure (.ok ())

/-- The handler inside the decorators. -/
def innermost (handler : app.ErasedHandler) (event : app.Event handler.event) :
    Program app.resilience (Except String Unit) :=
  await (.app (.handleEvent handler event))

/-- The decorators of one handler. -/
structure Resilience where
  policy : RetryPolicy
  topic : String

/-- `DeadLettering::new(Retrying::new(handler, policy), …)`, behind the bus. -/
def resilient (wrapped : app.ErasedHandler → Resilience) (handler : app.ErasedHandler)
    (event : app.Event handler.event) : Program app.resilience (Except String Unit) := do
  let result ← DeadLettering.handle (wrapped handler).topic
    (Retrying.handle (wrapped handler).policy (innermost handler event)) event
  pure (result.mapError DeadLetteringError.toText)

/-- The application with its plain handlers wrapped. -/
def wrapping (wrapped : app.ErasedHandler → Resilience) :
    (op : app.Op) → Program app.resilience (app.signature.Reply op)
  | .handleEvent handler event => resilient wrapped handler event
  | .handleCascading handler event => await (.app (.handleCascading handler event))
  | .handleCommand handler command => await (.app (.handleCommand handler command))

/-! ## What becomes of one event at one handler -/

section Settlement

variable (wrapped : app.ErasedHandler → Resilience) (handler : app.ErasedHandler)
  (event : app.Event handler.event)

/-- One call of the handler. -/
def attempted (reply : Except String Unit) : Performed app.resilience :=
  ⟨.app (.handleEvent handler event), reply⟩

/-- The failed calls that are followed by another one: each error, with what the backoff drew. -/
def refusals (failed : List (String × Duration)) : List (Performed app.resilience) :=
  failed.flatMap fun (error, drawn) =>
    [attempted handler event (.error error), ⟨.delayFor, drawn⟩,
      ⟨.sleep ((wrapped handler).policy.backoff.delayFor drawn), ()⟩]

/-- The event goes to the dead-letter queue, with the last error as the reason. -/
def parking (error : String) (message : Message) (id : Uuid) (now : Time)
    (reply : Except DeadLetterError Unit) : List (Performed app.resilience) :=
  [⟨.mapEvent ⟨handler.event, event⟩, message⟩, ⟨.nowV7, id⟩, ⟨.utcNow, now⟩,
    ⟨.deadLetter (.new id now { message with topic := (wrapped handler).topic } error 1), reply⟩]

/-- What a wrapped handler does with an event, and what it tells the bus: the event is handled
within the budget, or it is parked once after the whole budget, or parking it fails. -/
inductive Settles : List (Performed app.resilience) → Except String Unit → Prop
  | handled (failed : List (String × Duration))
      (within : failed.length < (wrapped handler).policy.budget) :
      Settles (refusals wrapped handler event failed ++ [attempted handler event (.ok ())]) (.ok ())
  | parked (failed : List (String × Duration)) (error : String) (message : Message) (id : Uuid)
      (now : Time) (spent : failed.length + 1 = (wrapped handler).policy.budget) :
      Settles (refusals wrapped handler event failed ++
        attempted handler event (.error error) ::
          parking wrapped handler event error message id now (.ok ())) (.ok ())
  | lost (failed : List (String × Duration)) (error : String) (message : Message) (id : Uuid)
      (now : Time) (fault : DeadLetterError)
      (spent : failed.length + 1 = (wrapped handler).policy.budget) :
      Settles (refusals wrapped handler event failed ++
        attempted handler event (.error error) ::
          parking wrapped handler event error message id now (.error fault))
        (.error (DeadLetteringError.toText ⟨error, fault⟩))

variable {wrapped handler event} {env : Environment app.resilience σ}

theorem record_await {α : Type} (op : ResilienceOp app)
    (next : app.resilience.Reply op → Program app.resilience α) (s : σ) :
    (await op >>= next).record env s =
      ((next (env s op).2).record env (env s op).1).preceded [⟨op, (env s op).2⟩] := rfl

theorem record_innermost (s : σ) : (innermost handler event).record env s =
    ⟨[attempted handler event (env s (.app (.handleEvent handler event))).2],
      (env s (.app (.handleEvent handler event))).1,
      (env s (.app (.handleEvent handler event))).2⟩ := rfl

variable (wrapped handler event env)

/-- The loop calls the handler until it succeeds or the policy stops. -/
theorem loop_calls {policy : RetryPolicy} (same : (wrapped handler).policy = policy) (attempt : ℕ)
    (s : σ) : ∃ failed last,
      ((Retrying.loop policy (innermost handler event) attempt).record env s).trace =
          refusals wrapped handler event failed ++ [attempted handler event last] ∧
      ((Retrying.loop policy (innermost handler event) attempt).record env s).value = last ∧
      attempt + failed.length ≤ max attempt policy.maxAttempts ∧
      (last ≠ .ok () → attempt + failed.length = max attempt policy.maxAttempts) := by
  induction left : policy.maxAttempts - attempt generalizing attempt s with
  | zero =>
      rw [Retrying.loop, Program.record_bind, record_innermost]
      cases (env s (.app (.handleEvent handler event))).2 with
      | ok _ => exact ⟨[], .ok (), rfl, rfl, le_max_left _ _, fun bad => (bad rfl).elim⟩
      | error error =>
          have stops : ¬ attempt < policy.maxAttempts := by omega
          simp only [stops, if_false]
          refine ⟨[], .error error, rfl, rfl, le_max_left _ _, fun _ => ?_⟩
          exact (max_eq_left (not_lt.mp stops)).symm
  | succ left ih =>
      rw [Retrying.loop, Program.record_bind, record_innermost]
      cases (env s (.app (.handleEvent handler event))).2 with
      | ok _ => exact ⟨[], .ok (), rfl, rfl, le_max_left _ _, fun bad => (bad rfl).elim⟩
      | error error =>
          have goesOn : attempt < policy.maxAttempts := by omega
          simp only [goesOn, if_true]
          set refused := (env s (.app (.handleEvent handler event))).1
          set drawn := (env refused .delayFor).2
          set slept := (env (env refused .delayFor).1 (.sleep (policy.backoff.delayFor drawn))).1
          obtain ⟨failed, last, trace, value, within, spent⟩ := ih (attempt + 1) slept (by omega)
          refine ⟨(error, drawn) :: failed, last, ?_, value, ?_, fun bad => ?_⟩
          · show attempted handler event (.error error) :: ⟨.delayFor, drawn⟩ ::
              ⟨.sleep (policy.backoff.delayFor drawn), ()⟩ ::
              ((Retrying.loop policy (innermost handler event)
                (attempt + 1)).record env slept).trace = _
            rw [trace]
            subst same
            rfl
          · rw [List.length_cons]
            omega
          · have all := spent bad
            rw [List.length_cons]
            omega

theorem refusals_within {policy : RetryPolicy} {failed : ℕ}
    (within : 1 + failed ≤ max 1 policy.maxAttempts) : failed < policy.budget := by
  unfold RetryPolicy.budget
  omega

/-- Whatever answers, a wrapped handler settles the event. -/
theorem resilient_settles (s : σ) :
    Settles wrapped handler event ((resilient wrapped handler event).record env s).trace
      ((resilient wrapped handler event).record env s).value := by
  rw [resilient, Program.record_map, DeadLettering.handle, Program.record_bind, Retrying.handle]
  obtain ⟨failed, last, trace, value, within, spent⟩ :=
    loop_calls wrapped handler event env rfl 1 s
  rw [value]
  cases last with
  | ok _ =>
      simp only [Recorded.preceded, Program.record_pure, List.append_nil, trace]
      exact .handled failed (refusals_within within)
  | error error =>
      have all : failed.length + 1 = (wrapped handler).policy.budget :=
        (Nat.add_comm _ _).trans (spent (by simp))
      simp only [record_await]
      generalize ((Retrying.loop _ _ 1).record env s).state = s
      generalize (env s (.mapEvent ⟨handler.event, event⟩)) = mapped
      generalize env mapped.1 .nowV7 = named
      generalize env named.1 .utcNow = dated
      cases (env dated.1 (.deadLetter (.new named.2 dated.2
          { mapped.2 with topic := (wrapped handler).topic } error 1))).2 with
      | ok _ =>
          simp only [Recorded.preceded, Program.record_pure, trace, List.append_assoc]
          exact .parked failed error mapped.2 named.2 dated.2 all
      | error fault =>
          simp only [Recorded.preceded, Program.record_pure, trace, List.append_assoc]
          exact .lost failed error mapped.2 named.2 dated.2 fault all

end Settlement

/-! ## What becomes of one event on the bus -/

/-- What the bus did at one handler, and how it ended. -/
structure Settlement (app : Application) where
  trace : List (Performed app.resilience)
  outcome : Except EventBusError Unit

/-- The error of a settlement that failed. -/
def Settlement.error? (settlement : Settlement app) : Option EventBusError :=
  match settlement.outcome with
  | .ok () => none
  | .error error => some error

section Publish

variable (wrapped : app.ErasedHandler → Resilience)

/-- The wrapped handler settled an event behind `dyn Any`. -/
def SettlesAny (any : app.Any) (handler : app.ErasedHandler) (settlement : Settlement app) : Prop :=
  ∃ event result, any.downcastRef handler.event = some event ∧
    Settles wrapped handler event settlement.trace result ∧
    settlement.outcome = result.mapError (.handlerError (app.eventType event))

variable {wrapped} {any : app.Any} {env : Environment app.resilience σ}

/-- A publish visits all handlers, or stops behind one that failed. -/
theorem PublishErrorPolicy.Delivers.split {policy : PublishErrorPolicy}
    {handlers : List app.ErasedHandler} {trace : List (Performed app.signature)}
    {errors : List EventBusError} (delivers : policy.Delivers any handlers trace errors) :
    ∃ called skipped visits, handlers = called ++ skipped ∧
      List.Forall₂ (VisitsAny any) called visits ∧ trace = visits.flatMap Visit.trace ∧
      errors = visits.filterMap Visit.error? ∧
      (skipped = [] ∨ policy = .failFast ∧ ∃ visit ∈ visits, visit.outcome ≠ .ok ()) := by
  cases policy with
  | collectAll =>
      obtain ⟨visits, all, did, reports⟩ := delivers
      exact ⟨handlers, [], visits, (List.append_nil _).symm, all, did, reports, .inl rfl⟩
  | failFast =>
      obtain ⟨called, skipped, visits, split, all, did, ended⟩ := delivers
      have silent : ∀ visits : List (Visit app), (∀ visit ∈ visits, visit.outcome = .ok ()) →
          visits.filterMap Visit.error? = [] := by
        intro visits fine
        rw [List.filterMap_eq_nil_iff]
        intro visit listed
        rw [Visit.error?, fine visit listed]
      rcases ended with ⟨none, quiet, fine⟩ | ⟨earlier, last, error, rfl, failed, one, fine⟩
      · exact ⟨called, skipped, visits, split, all, did, quiet.trans (silent visits fine).symm,
          .inl none⟩
      · refine ⟨called, skipped, _, split, all, did, ?_, .inr ⟨rfl, last, by simp, ?_⟩⟩
        · rw [List.filterMap_append, silent earlier fine, one]
          simp [Visit.error?, failed]
        · simp [failed]

/-- A call of a plain handler is a run of the wrapped one. -/
theorem settles_of_carries {handler : app.ErasedHandler} {event : app.Event handler.event}
    {reply : Except String Unit} {run : List (Performed app.resilience)}
    (carries : Program.Carries (S := app.signature) (wrapping wrapped) env
      ⟨.handleEvent handler event, reply⟩ run) :
    Settles wrapped handler event run reply := by
  obtain ⟨s, rfl, replied⟩ := carries
  have settles := resilient_settles wrapped handler event env s
  rwa [show ((resilient wrapped handler event).record env s).value = reply from replied] at settles

/-- The visits of plain handlers are carried out by the wrapped ones. -/
theorem settle_of_visits {handlers : List app.ErasedHandler} {visits : List (Visit app)}
    {runs : List (List (Performed app.resilience))}
    (plain : ∀ handler ∈ handlers, handler.wrapper = .plain)
    (visited : List.Forall₂ (VisitsAny any) handlers visits)
    (carried : List.Forall₂ (Program.Carries (wrapping wrapped) env)
      (visits.flatMap Visit.trace) runs) :
    ∃ settlements, List.Forall₂ (SettlesAny wrapped any) handlers settlements ∧
      settlements.map Settlement.trace = runs ∧
      settlements.map Settlement.outcome = visits.map Visit.outcome := by
  induction visited generalizing runs with
  | nil =>
      cases carried
      exact ⟨[], .nil, rfl, rfl⟩
  | @cons handler visit handlers visits first rest ih =>
      have isPlain := plain handler List.mem_cons_self
      obtain ⟨event, typed, visit⟩ := first
      cases visit with
      | handled _ =>
          cases carried with
          | cons carries carried =>
              obtain ⟨settlements, all, did, ended⟩ :=
                ih (fun h listed => plain h (List.mem_cons_of_mem _ listed)) carried
              exact ⟨⟨_, .ok ()⟩ :: settlements,
                .cons ⟨event, .ok (), typed, settles_of_carries carries, rfl⟩ all,
                congrArg (_ :: ·) did, congrArg (_ :: ·) ended⟩
      | refused _ source =>
          cases carried with
          | cons carries carried =>
              obtain ⟨settlements, all, did, ended⟩ :=
                ih (fun h listed => plain h (List.mem_cons_of_mem _ listed)) carried
              exact ⟨⟨_, .error (.handlerError (app.eventType event) source)⟩ :: settlements,
                .cons ⟨event, .error source, typed, settles_of_carries carries, rfl⟩ all,
                congrArg (_ :: ·) did, congrArg (_ :: ·) ended⟩
      | cascaded cascading | withheld cascading =>
          rw [isPlain] at cascading
          cases cascading

/-- A handler fails with one error of its own. -/
theorem call_returns (handler : app.ErasedHandler) (any : app.Any) :
    (handler.call any).Returns fun result => ∀ error, result = .error error →
      error.individual = [error] := by
  have cascades : ∀ eventType (commands : List app.Cascaded),
      (dispatchCascaded eventType commands).Returns fun result =>
        ∀ error, result = .error error → error.individual = [error] := by
    intro eventType commands
    induction commands with
    | nil =>
        intro error failed
        cases failed
    | cons command commands ih =>
        refine Program.Returns.bind (Program.Returns.any _) fun result _ => ?_
        cases result with
        | error source =>
            intro error failed
            cases failed
            rfl
        | ok _ => exact ih
  unfold ErasedHandler.call
  split
  · intro error failed
    cases failed
    rfl
  · split
    · intro reply
      cases reply with
      | error source =>
          intro error failed
          cases failed
          rfl
      | ok _ =>
          intro error failed
          cases failed
    · intro reply
      cases reply with
      | error source =>
          intro error failed
          cases failed
          rfl
      | ok commands => exact cascades _ commands

/-- A publish that reports no error succeeded. -/
theorem publishLoop_returns (bus : EventBus app) (event : app.Event type)
    {handlers : List app.ErasedHandler} {errors : List EventBusError}
    (single : ∀ error ∈ errors, error.individual = [error]) :
    (bus.publishLoop event handlers errors).Returns fun result =>
      individualErrors result = [] → result = .ok () := by
  induction handlers generalizing errors with
  | nil =>
      rcases errors with _ | ⟨first, _ | ⟨second, more⟩⟩
      · exact fun _ => rfl
      · intro silent
        rw [individualErrors, single first (List.mem_singleton_self first)] at silent
        cases silent
      · exact fun silent => by cases silent
  | cons handler handlers ih =>
      refine Program.Returns.bind (call_returns handler ⟨type, event⟩) fun result alone => ?_
      cases result with
      | ok _ => exact ih single
      | error error =>
          cases bus.errorPolicy with
          | failFast =>
              intro silent
              rw [individualErrors, alone error rfl] at silent
              cases silent
          | collectAll =>
              refine ih fun e listed => ?_
              rcases List.mem_append.mp listed with old | new
              · exact single e old
              · exact List.mem_singleton.mp new ▸ alone error rfl

/-- The handler took the event, or it is on the dead-letter queue. -/
def Kept (handler : app.ErasedHandler) (any : app.Any) (trace : List (Performed app.resilience)) :
    Prop :=
  ∃ event, any.downcastRef handler.event = some event ∧
    (attempted handler event (.ok ()) ∈ trace ∨
      ∃ dead, (⟨.deadLetter dead, .ok ()⟩ : Performed app.resilience) ∈ trace)

/-- A settlement that did not fail keeps the event. -/
theorem SettlesAny.kept {handler : app.ErasedHandler} {settlement : Settlement app}
    (settles : SettlesAny wrapped any handler settlement) (fine : settlement.outcome = .ok ()) :
    Kept handler any settlement.trace := by
  obtain ⟨event, result, typed, settled, outcome⟩ := settles
  refine ⟨event, typed, ?_⟩
  generalize settlement.trace = trace at settled
  cases settled with
  | handled failed within => simp
  | parked failed error message id now spent =>
      refine .inr ⟨.new id now { message with topic := (wrapped handler).topic } error 1, ?_⟩
      simp [parking]
  | lost failed error message id now fault spent =>
      rw [outcome] at fine
      cases fine

/-- A settlement that failed was refused by the dead-letter queue. -/
theorem SettlesAny.refused {handler : app.ErasedHandler} {settlement : Settlement app}
    (settles : SettlesAny wrapped any handler settlement) (failed : settlement.outcome ≠ .ok ()) :
    ∃ dead fault, (⟨.deadLetter dead, .error fault⟩ : Performed app.resilience) ∈
      settlement.trace := by
  obtain ⟨event, result, typed, settled, outcome⟩ := settles
  rw [outcome] at failed
  generalize settlement.trace = trace at settled
  cases settled with
  | handled _ _ | parked _ _ _ _ _ _ => exact (failed rfl).elim
  | lost refused error message id now fault spent =>
      refine ⟨.new id now { message with topic := (wrapped handler).topic } error 1, fault, ?_⟩
      simp [parking]

/-- Where the queue refuses nothing, every settlement keeps the event. -/
theorem all_kept {handlers : List app.ErasedHandler} {settlements : List (Settlement app)}
    (settled : List.Forall₂ (SettlesAny wrapped any) handlers settlements)
    (unrefused : ∀ settlement ∈ settlements, ∀ dead fault,
      (⟨.deadLetter dead, .error fault⟩ : Performed app.resilience) ∉ settlement.trace) :
    (∀ settlement ∈ settlements, settlement.outcome = .ok ()) ∧
      List.Forall₂ (fun handler settlement => Kept handler any settlement.trace)
        handlers settlements := by
  induction settled with
  | nil => exact ⟨fun _ listed => (by cases listed), .nil⟩
  | @cons handler settlement handlers settlements first rest ih =>
      have fine : settlement.outcome = .ok () := by
        by_contra failed
        obtain ⟨dead, fault, listed⟩ := first.refused failed
        exact unrefused settlement List.mem_cons_self dead fault listed
      obtain ⟨later, kept⟩ := ih fun other listed => unrefused other (List.mem_cons_of_mem _ listed)
      exact ⟨List.forall_mem_cons.mpr ⟨fine, later⟩, .cons (first.kept fine) kept⟩

/-- A bus of handlers that retry and dead-letter settles an event handler by handler, in the order
of registration: each one handles it within its budget, or it is parked once, after the whole
budget and under the topic and with the last error of that handler, or the queue refuses it.  The
errors that the publish reports are these refusals; it leaves handlers out only behind one of them
and only failing fast.  Over a queue that refuses nothing every publish succeeds and every handler
of the event has handled it or has it parked. -/
theorem publish_settles (wrapped : app.ErasedHandler → Resilience)
    (env : Environment app.resilience σ) (bus : EventBus app) (event : app.Event type)
    (plain : ∀ handler ∈ bus.handlersFor type, handler.wrapper = .plain) (s : σ) :
    let run := ((bus.publish event).interpret (wrapping wrapped)).record env s
    ∃ called skipped settlements, bus.handlersFor type = called ++ skipped ∧
      List.Forall₂ (SettlesAny wrapped ⟨type, event⟩) called settlements ∧
      run.trace = settlements.flatMap Settlement.trace ∧
      individualErrors run.value = settlements.filterMap Settlement.error? ∧
      (skipped = [] ∨ bus.errorPolicy = .failFast ∧
        ∃ settlement ∈ settlements, settlement.outcome ≠ .ok ()) ∧
      ((∀ s dead, (env s (.deadLetter dead)).2 = .ok ()) →
        run.value = .ok () ∧ skipped = [] ∧
          List.Forall₂ (fun handler settlement => Kept handler ⟨type, event⟩ settlement.trace)
            (bus.handlersFor type) settlements) := by
  intro run
  obtain ⟨called, skipped, visits, split, visited, did, reports, ended⟩ :=
    (@EventBus.publish_delivers app σ type (Program.interpreted (wrapping wrapped) env) s bus
      event).split
  obtain ⟨runs, carried, recorded⟩ :=
    Program.record_interpret (wrapping wrapped) env (bus.publish event) s
  rw [did] at carried
  obtain ⟨settlements, settled, traces, outcomes⟩ := settle_of_visits
    (fun handler listed => plain handler (split ▸ List.mem_append_left _ listed)) visited carried
  have value : run.value = ((bus.publish event).record
      (Program.interpreted (wrapping wrapped) env) s).value := congrArg Recorded.value recorded
  have trace : run.trace = settlements.flatMap Settlement.trace := by
    rw [show run.trace = runs.flatten from congrArg Recorded.trace recorded, ← traces]
    rfl
  have errors : individualErrors run.value = settlements.filterMap Settlement.error? := by
    have same := congrArg (List.filterMap fun outcome : Except EventBusError Unit =>
      match outcome with
      | .ok () => none
      | .error error => some error) outcomes
    rw [List.filterMap_map, List.filterMap_map] at same
    rw [value, reports]
    exact same.symm
  have stopped : skipped = [] ∨ bus.errorPolicy = .failFast ∧
      ∃ settlement ∈ settlements, settlement.outcome ≠ .ok () := by
    rcases ended with none | ⟨failFast, visit, listed, failed⟩
    · exact .inl none
    · have outcome := List.mem_map_of_mem (f := Visit.outcome) listed
      rw [← outcomes] at outcome
      obtain ⟨settlement, member, same⟩ := List.mem_map.mp outcome
      exact .inr ⟨failFast, settlement, member, same.symm ▸ failed⟩
  refine ⟨called, skipped, settlements, split, settled, trace, errors, stopped, fun accepts => ?_⟩
  have unrefused : ∀ settlement ∈ settlements, ∀ dead fault,
      (⟨.deadLetter dead, .error fault⟩ : Performed app.resilience) ∉ settlement.trace := by
    intro settlement member dead fault listed
    have performed := List.mem_flatMap.mpr ⟨settlement, member, listed⟩
    rw [← trace] at performed
    obtain ⟨s, answered⟩ := Program.record_answered _ _ _ performed
    cases (accepts s dead).symm.trans answered
  obtain ⟨fine, kept⟩ := all_kept settled unrefused
  have none : skipped = [] := by
    rcases stopped with none | ⟨-, settlement, member, failed⟩
    · exact none
    · exact (failed (fine settlement member)).elim
  refine ⟨?_, none, ?_⟩
  · have silent : individualErrors run.value = [] := by
      rw [errors, List.filterMap_eq_nil_iff]
      intro settlement member
      rw [Settlement.error?, fine settlement member]
    have returns : (bus.publish event).Returns fun result =>
        individualErrors result = [] → result = .ok () := by
      rw [EventBus.publish_eq]
      exact publishLoop_returns bus event fun _ listed => by cases listed
    rw [value] at silent ⊢
    exact returns.record s silent
  · rw [split, none, List.append_nil]
    exact kept

end Publish

namespace EventBus

/-- Every handler of the shop gets two attempts. -/
def twice (_ : shop.ErasedHandler) : Resilience where
  policy := { maxAttempts := 2, backoff := .fixed 1000000 }
  topic := "orders.dlq"

/-- The audit is down, everything else works, and the queue keeps what it is given. -/
def auditDown : Environment shop.resilience (List DeadLetterMessage)
  | dead, .app (.handleEvent handler _) =>
      (dead, if handler.name = "Audit" then .error "down" else .ok ())
  | dead, .app (.handleCascading _ _) => (dead, .ok [])
  | dead, .app (.handleCommand _ _) => (dead, .ok ())
  | dead, .delayFor => (dead, (0 : ℕ))
  | dead, .sleep _ => (dead, ())
  | dead, .mapEvent _ => (dead, { messageId := 7, topic := "orders" })
  | dead, .nowV7 => (dead, (1 : ℕ))
  | dead, .utcNow => (dead, (0 : ℤ))
  | dead, .deadLetter message => (dead ++ [message], .ok ())

/-- A failing handler before one that works, on a bus that fails fast. -/
def auditedBus : EventBus shop :=
  ((withErrorPolicy shop .failFast).register () "Audit").register () "Index"

theorem publish_settles_auditDown :
    let run := ((auditedBus.publish (orderPlaced 3)).interpret (wrapping twice)).record
      auditDown []
    run.value = .ok () ∧
      run.state = [⟨1, { messageId := 7, topic := "orders.dlq" }, "down", 1, 0⟩] := by
  intro run
  have plain : ∀ handler ∈ auditedBus.handlersFor (), handler.wrapper = .plain := by decide
  obtain ⟨called, skipped, settlements, -, -, -, -, -, kept⟩ :=
    publish_settles twice auditDown auditedBus (orderPlaced 3) plain []
  exact ⟨(kept fun dead message => rfl).1, by decide +kernel⟩

end EventBus

end Pharos

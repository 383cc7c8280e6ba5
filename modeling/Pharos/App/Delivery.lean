import Pharos.App.EventBus
import Pharos.Async.Record

/-!
# What a publish delivers

One call of a registered handler is a visit: the handler is called once with the event, and a
cascading handler is followed by its commands up to the first that fails.  A publish visits the
handlers of the event's type in the order of their registration, all of them when errors are
collected and up to the first failing one otherwise, and the typed loop and the loop over a decoded
event make the same visits and report the same errors.

Dispatching to one handler at a time looks a handler up by its name, and finds the first of them.
-/

namespace Pharos

open Async Application

variable {app : Application} {σ : Type}

/-- The individual errors of a failed publish. -/
def EventBusError.individual : EventBusError → List EventBusError
  | .handlerErrors _ errors => errors
  | error => [error]

/-- The individual errors that a publish reports. -/
def individualErrors : Except EventBusError Unit → List EventBusError
  | .ok () => []
  | .error error => error.individual

/-- Two results that differ at most in the event type they name for several errors together. -/
inductive SameReport : Except EventBusError Unit → Except EventBusError Unit → Prop
  | refl (result : Except EventBusError Unit) : SameReport result result
  | relabelled (label other : String) (errors : List EventBusError) :
      SameReport (.error (.handlerErrors label errors)) (.error (.handlerErrors other errors))

theorem SameReport.isOk {first second : Except EventBusError Unit} (same : SameReport first second) :
    first.isOk = second.isOk := by
  cases same with
  | refl result => rfl
  | relabelled label other errors => rfl

theorem SameReport.individual {first second : Except EventBusError Unit}
    (same : SameReport first second) : individualErrors first = individualErrors second := by
  cases same with
  | refl result => rfl
  | relabelled label other errors => rfl

/-! ## One visit -/

/-- The commands of a cascade run one after the other and stop at the first that fails. -/
inductive Cascade (eventType : String) :
    List app.Cascaded → List (Performed app.signature) → Except EventBusError Unit → Prop
  | done : Cascade eventType [] [] (.ok ())
  | failed (command : app.Cascaded) (later : List app.Cascaded)
      (error : app.Error command.handler) :
      Cascade eventType (command :: later)
        [⟨.handleCommand command.handler command.command, .error error⟩]
        (.error (.cascadeFailed eventType
          (CascadeError.toText ⟨app.name command.kind, app.toText error⟩)))
  | succeeded (command : app.Cascaded) (output : app.Output command.handler)
      {later : List app.Cascaded} {trace : List (Performed app.signature)}
      {outcome : Except EventBusError Unit} (rest : Cascade eventType later trace outcome) :
      Cascade eventType (command :: later)
        (⟨.handleCommand command.handler command.command, .ok output⟩ :: trace) outcome

/-- What one call of a handler did, and how it ended. -/
structure Visit (app : Application) where
  trace : List (Performed app.signature)
  outcome : Except EventBusError Unit

/-- A run of a handler's call, seen as a visit. -/
def visitOf (run : Recorded app.signature σ (Except EventBusError Unit)) : Visit app where
  trace := run.trace
  outcome := run.value

/-- The error of a visit that failed. -/
def Visit.error? (visit : Visit app) : Option EventBusError :=
  match visit.outcome with
  | .ok () => none
  | .error error => some error

/-- A visit of a handler: it is called once, and the commands it returns cascade. -/
inductive Visits (handler : app.ErasedHandler) (event : app.Event handler.event) : Visit app → Prop
  | handled (plain : handler.wrapper = .plain) :
      Visits handler event ⟨[⟨.handleEvent handler event, .ok ()⟩], .ok ()⟩
  | refused (plain : handler.wrapper = .plain) (source : String) :
      Visits handler event ⟨[⟨.handleEvent handler event, .error source⟩],
        .error (.handlerError (app.eventType event) source)⟩
  | cascaded (cascading : handler.wrapper = .cascading) (commands : List app.Cascaded)
      {trace : List (Performed app.signature)} {outcome : Except EventBusError Unit}
      (cascade : Cascade (app.eventType event) commands trace outcome) :
      Visits handler event ⟨⟨.handleCascading handler event, .ok commands⟩ :: trace, outcome⟩
  | withheld (cascading : handler.wrapper = .cascading) (source : String) :
      Visits handler event ⟨[⟨.handleCascading handler event, .error source⟩],
        .error (.handlerError (app.eventType event) source)⟩

/-- A visit of a handler with an event behind `dyn Any`. -/
def VisitsAny (any : app.Any) (handler : app.ErasedHandler) (visit : Visit app) : Prop :=
  ∃ event, any.downcastRef handler.event = some event ∧ Visits handler event visit

section Visit

variable {env : Environment app.signature σ} {s : σ} {eventType : String} {α : Type}

theorem record_handleEvent (handler : app.ErasedHandler) (event : app.Event handler.event)
    (next : Except String Unit → Program app.signature α) :
    (handleEvent handler event >>= next).record env s =
      ((next (env s (.handleEvent handler event)).2).record env
        (env s (.handleEvent handler event)).1).preceded
          [⟨.handleEvent handler event, (env s (.handleEvent handler event)).2⟩] := rfl

theorem record_handleCascading (handler : app.ErasedHandler) (event : app.Event handler.event)
    (next : Except String (List app.Cascaded) → Program app.signature α) :
    (handleCascading handler event >>= next).record env s =
      ((next (env s (.handleCascading handler event)).2).record env
        (env s (.handleCascading handler event)).1).preceded
          [⟨.handleCascading handler event, (env s (.handleCascading handler event)).2⟩] := rfl

theorem record_handleCommand {kind : app.Kind} (handler : app.Handler kind)
    (command : app.Command kind)
    (next : Except (app.Error handler) (app.Output handler) → Program app.signature α) :
    (handleCommand handler command >>= next).record env s =
      ((next (env s (.handleCommand handler command)).2).record env
        (env s (.handleCommand handler command)).1).preceded
          [⟨.handleCommand handler command, (env s (.handleCommand handler command)).2⟩] := rfl


/-- A cascaded command whose handler fails. -/
theorem record_dispatch_of_error {command : app.Cascaded} {error : app.Error command.handler}
    (answered : (env s (.handleCommand command.handler command.command)).2 = .error error) :
    command.dispatch.record env s =
      ⟨[⟨.handleCommand command.handler command.command, .error error⟩],
        (env s (.handleCommand command.handler command.command)).1,
        .error ⟨app.name command.kind, app.toText error⟩⟩ := by
  rw [Cascaded.dispatch, record_handleCommand, answered]
  rfl

/-- A cascaded command whose handler succeeds. -/
theorem record_dispatch_of_ok {command : app.Cascaded} {output : app.Output command.handler}
    (answered : (env s (.handleCommand command.handler command.command)).2 = .ok output) :
    command.dispatch.record env s =
      ⟨[⟨.handleCommand command.handler command.command, .ok output⟩],
        (env s (.handleCommand command.handler command.command)).1, .ok ()⟩ := by
  rw [Cascaded.dispatch, record_handleCommand, answered]
  rfl

/-- The commands of a cascade run as they should. -/
theorem dispatchCascaded_cascade (commands : List app.Cascaded) :
    Cascade eventType commands ((dispatchCascaded eventType commands).record env s).trace
      ((dispatchCascaded eventType commands).record env s).value := by
  induction commands generalizing s with
  | nil => exact .done
  | cons command later ih =>
      rw [dispatchCascaded, Program.record_bind]
      cases answered : (env s (.handleCommand command.handler command.command)).2 with
      | error error =>
          rw [record_dispatch_of_error answered]
          exact .failed command later error
      | ok output =>
          rw [record_dispatch_of_ok answered]
          exact .succeeded command output ih

theorem Cascade.individual {commands : List app.Cascaded} {trace : List (Performed app.signature)}
    {error : EventBusError} (cascade : Cascade eventType commands trace (.error error)) :
    error.individual = [error] := by
  generalize same : Except.error error = outcome at cascade
  induction cascade with
  | done => cases same
  | failed command later fault =>
      cases same
      rfl
  | succeeded command output rest ih => exact ih same

/-- A handler that stands under the type of the event is visited when it is called. -/
theorem call_visits {any : app.Any} {handler : app.ErasedHandler} (keyed : handler.event = any.type) :
    VisitsAny any handler (visitOf ((handler.call any).record env s)) := by
  obtain ⟨type, event⟩ := any
  cases keyed
  have typed : Any.downcastRef (⟨handler.event, event⟩ : app.Any) handler.event = some event :=
    dif_pos rfl
  refine ⟨event, typed, ?_⟩
  rw [ErasedHandler.call, typed]
  cases wrapped : handler.wrapper with
  | plain =>
      show Visits handler event (visitOf ((callPlain handler event).record env s))
      rw [callPlain, record_handleEvent]
      cases (env s (.handleEvent handler event)).2 with
      | error source => exact .refused wrapped source
      | ok _ => exact .handled wrapped
  | cascading =>
      show Visits handler event (visitOf ((callCascading handler event).record env s))
      rw [callCascading, record_handleCascading]
      cases (env s (.handleCascading handler event)).2 with
      | error source => exact .withheld wrapped source
      | ok commands => exact .cascaded wrapped commands (dispatchCascaded_cascade commands)

/-- A visit fails with one error of its own. -/
theorem VisitsAny.individual {any : app.Any} {handler : app.ErasedHandler} {visit : Visit app}
    (visits : VisitsAny any handler visit) {error : EventBusError}
    (failed : visit.outcome = .error error) : error.individual = [error] := by
  obtain ⟨event, -, visits⟩ := visits
  cases visits with
  | handled plain => cases failed
  | refused plain source =>
      cases failed
      rfl
  | cascaded cascading commands cascade =>
      cases failed
      exact cascade.individual
  | withheld cascading source =>
      cases failed
      rfl

end Visit

/-! ## The two loops -/

/-- Two runs that did the same and report the same errors. -/
structure SameRun (first second : Recorded app.signature σ (Except EventBusError Unit)) : Prop where
  trace : first.trace = second.trace
  state : first.state = second.state
  report : SameReport first.value second.value

theorem SameRun.refl (run : Recorded app.signature σ (Except EventBusError Unit)) :
    SameRun run run :=
  ⟨rfl, rfl, .refl _⟩

theorem SameRun.preceded {first second : Recorded app.signature σ (Except EventBusError Unit)}
    (same : SameRun first second) (earlier : List (Performed app.signature)) :
    SameRun (first.preceded earlier) (second.preceded earlier) :=
  ⟨congrArg (earlier ++ ·) same.trace, same.state, same.report⟩

/-- Every handler is visited, and every error is kept. -/
def CollectsAll (any : app.Any) (handlers : List app.ErasedHandler)
    (trace : List (Performed app.signature)) (errors : List EventBusError) : Prop :=
  ∃ visits, List.Forall₂ (VisitsAny any) handlers visits ∧
    trace = visits.flatMap Visit.trace ∧ errors = visits.filterMap Visit.error?

/-- The handlers are visited up to the first that fails, and its error is the only one. -/
def FailsFast (any : app.Any) (handlers : List app.ErasedHandler)
    (trace : List (Performed app.signature)) (errors : List EventBusError) : Prop :=
  ∃ called skipped visits, handlers = called ++ skipped ∧
    List.Forall₂ (VisitsAny any) called visits ∧ trace = visits.flatMap Visit.trace ∧
    ((skipped = [] ∧ errors = [] ∧ ∀ visit ∈ visits, visit.outcome = .ok ()) ∨
      ∃ earlier last error, visits = earlier ++ [last] ∧ last.outcome = .error error ∧
        errors = [error] ∧ ∀ visit ∈ earlier, visit.outcome = .ok ())

/-- The visits of a publish under an error policy, in registration order. -/
def PublishErrorPolicy.Delivers (policy : PublishErrorPolicy) (any : app.Any)
    (handlers : List app.ErasedHandler) (trace : List (Performed app.signature))
    (errors : List EventBusError) : Prop :=
  match policy with
  | .failFast => FailsFast any handlers trace errors
  | .collectAll => CollectsAll any handlers trace errors

namespace EventBus

section Loops

variable {bus : EventBus app} {type : app.TypeId} {event : app.Event type}
  {env : Environment app.signature σ} {s : σ}

/-- The loop over a decoded event does what the typed loop does. -/
theorem loops_agree (handlers : List app.ErasedHandler) (errors : List EventBusError) :
    SameRun ((bus.publishTrustedBytesLoop ⟨type, event⟩ handlers errors).record env s)
      ((bus.publishLoop event handlers errors).record env s) := by
  induction handlers generalizing errors s with
  | nil =>
      rcases errors with _ | ⟨first, _ | ⟨second, more⟩⟩
      · exact .refl _
      · exact .refl _
      · exact ⟨rfl, rfl, .relabelled _ _ _⟩
  | cons handler handlers ih =>
      rw [publishTrustedBytesLoop, publishLoop, Program.record_bind, Program.record_bind]
      apply SameRun.preceded
      cases ((handler.call ⟨type, event⟩).record env s).value with
      | ok _ => exact ih errors
      | error error =>
          cases policy : bus.errorPolicy with
          | failFast => exact .refl _
          | collectAll => exact ih (errors ++ [error])

/-- The loop ends with the errors it collected. -/
theorem publishLoop_nil (bus : EventBus app) (event : app.Event type) {errors : List EventBusError}
    (single : ∀ error ∈ errors, error.individual = [error]) :
    ∃ result, bus.publishLoop event [] errors = pure result ∧ individualErrors result = errors := by
  rcases errors with _ | ⟨first, _ | ⟨second, more⟩⟩
  · exact ⟨_, rfl, rfl⟩
  · exact ⟨_, rfl, single first (List.mem_singleton_self first)⟩
  · exact ⟨_, rfl, rfl⟩

/-- Collecting errors, the loop visits every handler that is left. -/
theorem publishLoop_collectAll (policy : bus.errorPolicy = .collectAll)
    {handlers : List app.ErasedHandler} {errors : List EventBusError}
    (keyed : ∀ handler ∈ handlers, handler.event = type)
    (single : ∀ error ∈ errors, error.individual = [error]) :
    ∃ visits, List.Forall₂ (VisitsAny ⟨type, event⟩) handlers visits ∧
      ((bus.publishLoop event handlers errors).record env s).trace = visits.flatMap Visit.trace ∧
      individualErrors ((bus.publishLoop event handlers errors).record env s).value =
        errors ++ visits.filterMap Visit.error? := by
  induction handlers generalizing errors s with
  | nil =>
      obtain ⟨result, returns, reports⟩ := publishLoop_nil bus event single
      refine ⟨[], .nil, ?_, ?_⟩
      · rw [returns]
        rfl
      · rw [returns, List.filterMap_nil, List.append_nil]
        exact reports
  | cons handler handlers ih =>
      have visits : VisitsAny ⟨type, event⟩ handler
          (visitOf ((handler.call ⟨type, event⟩).record env s)) :=
        call_visits (keyed handler List.mem_cons_self)
      have later : ∀ other ∈ handlers, other.event = type :=
        fun other listed => keyed other (List.mem_cons_of_mem _ listed)
      rw [publishLoop, Program.record_bind]
      cases outcome : ((handler.call ⟨type, event⟩).record env s).value with
      | ok _ =>
          obtain ⟨rest, all, did, reports⟩ := ih later single
          refine ⟨_ :: rest, .cons visits all, congrArg (_ ++ ·) did, ?_⟩
          have fine : (visitOf ((handler.call ⟨type, event⟩).record env s)).error? = none := by
            simp only [Visit.error?, visitOf, outcome]
          rw [List.filterMap_cons_none fine]
          exact reports
      | error error =>
          have alone : ∀ e ∈ errors ++ [error], e.individual = [e] := by
            intro e listed
            rcases List.mem_append.mp listed with old | new
            · exact single e old
            · rw [List.mem_singleton.mp new]
              exact visits.individual outcome
          obtain ⟨rest, all, did, reports⟩ := ih later alone
          rw [policy]
          refine ⟨_ :: rest, .cons visits all, congrArg (_ ++ ·) did, ?_⟩
          have failed : (visitOf ((handler.call ⟨type, event⟩).record env s)).error? = some error := by
            simp only [Visit.error?, visitOf, outcome]
          rw [List.filterMap_cons_some failed, List.append_cons]
          exact reports

/-- Failing fast, the loop visits the handlers up to the first that fails. -/
theorem publishLoop_failFast (policy : bus.errorPolicy = .failFast)
    {handlers : List app.ErasedHandler} (keyed : ∀ handler ∈ handlers, handler.event = type) :
    FailsFast ⟨type, event⟩ handlers ((bus.publishLoop event handlers []).record env s).trace
      (individualErrors ((bus.publishLoop event handlers []).record env s).value) := by
  induction handlers generalizing s with
  | nil => exact ⟨[], [], [], rfl, .nil, rfl, .inl ⟨rfl, rfl, fun _ listed => by cases listed⟩⟩
  | cons handler handlers ih =>
      have visits : VisitsAny ⟨type, event⟩ handler
          (visitOf ((handler.call ⟨type, event⟩).record env s)) :=
        call_visits (keyed handler List.mem_cons_self)
      have later : ∀ other ∈ handlers, other.event = type :=
        fun other listed => keyed other (List.mem_cons_of_mem _ listed)
      rw [publishLoop, Program.record_bind]
      cases outcome : ((handler.call ⟨type, event⟩).record env s).value with
      | ok _ =>
          obtain ⟨called, skipped, rest, split, all, did, ended⟩ := ih later
          refine ⟨handler :: called, skipped, _ :: rest, congrArg (handler :: ·) split,
            .cons visits all, congrArg (_ ++ ·) did, ?_⟩
          rcases ended with ⟨none, silent, fine⟩ | ⟨earlier, last, error, split, failed, one, fine⟩
          · exact .inl ⟨none, silent, List.forall_mem_cons.mpr ⟨outcome, fine⟩⟩
          · exact .inr ⟨_ :: earlier, last, error, congrArg (_ :: ·) split, failed, one,
              List.forall_mem_cons.mpr ⟨outcome, fine⟩⟩
      | error error =>
          rw [policy]
          refine ⟨[handler], handlers, [_], rfl, .cons visits .nil, ?_, .inr ⟨[], _, error, rfl,
            outcome, visits.individual outcome, fun _ listed => by cases listed⟩⟩
          simp [Recorded.preceded, visitOf]

/-- A publish runs the loop over the handlers of the event's type. -/
theorem publish_eq (bus : EventBus app) (event : app.Event type) :
    bus.publish event = bus.publishLoop event (bus.handlersFor type) [] := by
  unfold publish handlersFor
  cases DashMap.get bus.handlers type with
  | none => rfl
  | some handlers => rfl

/-- A payload that decodes runs the loop over the handlers of the decoded type. -/
theorem publishTrustedBytes_eq {topic : String} {payload : List UInt8} {decoder : app.Decoder}
    {event : app.Event decoder.type} (registered : DashMap.get bus.decoders topic = some decoder)
    (decoded : decoder.decode payload = .ok event) :
    bus.publishTrustedBytes topic payload =
      bus.publishTrustedBytesLoop ⟨decoder.type, event⟩ (bus.handlersFor decoder.type) [] := by
  unfold publishTrustedBytes handlersFor
  simp only [registered, decoded]
  cases DashMap.get bus.handlers decoder.type with
  | none => rfl
  | some handlers => rfl

/-- A publish makes the visits of its policy. -/
theorem publish_delivers (bus : EventBus app) (event : app.Event type) :
    bus.errorPolicy.Delivers ⟨type, event⟩ (bus.handlersFor type)
      ((bus.publish event).record env s).trace
      (individualErrors ((bus.publish event).record env s).value) := by
  rw [publish_eq]
  have keyed : ∀ handler ∈ bus.handlersFor type, handler.event = type :=
    fun _ listed => bus.keyed_handlersFor listed
  cases policy : bus.errorPolicy with
  | failFast => exact publishLoop_failFast policy keyed
  | collectAll => exact publishLoop_collectAll policy keyed fun _ listed => by cases listed

end Loops

/-- **Publishing an event and publishing bytes that decode to it agree.**  Both perform the same
operations, in the order of registration and up to where the error policy stops them, both succeed
or both fail, and both report the same errors in the same order. -/
theorem publishTrustedBytes_agrees (bus : EventBus app) {topic : String} {payload : List UInt8}
    {decoder : app.Decoder} {event : app.Event decoder.type}
    (registered : DashMap.get bus.decoders topic = some decoder)
    (decoded : decoder.decode payload = .ok event) (env : Environment app.signature σ) (s : σ) :
    let typed := (bus.publish event).record env s
    let erased := (bus.publishTrustedBytes topic payload).record env s
    erased.trace = typed.trace ∧ erased.value.isOk = typed.value.isOk ∧
      individualErrors erased.value = individualErrors typed.value ∧
      bus.errorPolicy.Delivers ⟨decoder.type, event⟩ (bus.handlersFor decoder.type) typed.trace
        (individualErrors typed.value) := by
  intro typed erased
  have same : SameRun erased typed := by
    show SameRun (Program.record env _ s) (Program.record env _ s)
    rw [publishTrustedBytes_eq registered decoded, publish_eq]
    exact loops_agree _ _
  exact ⟨same.trace, same.report.isOk, same.report.individual, bus.publish_delivers event⟩

/-- An application with one command, an order of at least one item, and one event. -/
def shop : Application where
  Kind := Unit
  Command _ := ℕ
  name _ := "PlaceOrder"
  internalOnly _ := false
  validateInput := fun (quantity : ℕ) =>
    if quantity = 0 then .error (.violation "quantity" "lower than 1") else .ok ()
  Handler _ := Unit
  Output _ := Unit
  Error _ := String
  toText := fun (error : String) => error
  succeeds _ := ⟨()⟩
  TypeId := Unit
  decEqTypeId := inferInstanceAs (DecidableEq Unit)
  Event _ := ℕ
  eventType _ := "OrderPlaced"
  fromSlice _ bytes :=
    if !bytes.isEmpty ∧ bytes.all fun byte => 48 ≤ byte ∧ byte ≤ 57 then
      .ok (bytes.foldl (fun quantity digit => 10 * quantity + (digit.toNat - 48)) 0)
    else .error "expected value"

/-- Handlers of the shop that all succeed, with a cascade of one order. -/
def shopHandlers : Environment shop.signature Unit
  | (), .handleEvent _ _ => ((), .ok ())
  | (), .handleCascading _ quantity => ((), .ok [⟨(), (), quantity⟩])
  | (), .handleCommand _ _ => ((), .ok ())

/-- A bus with a plain and a cascading handler of orders. -/
def shopBus : EventBus shop :=
  (((withErrorPolicy shop .collectAll).register () "Audit").registerCascading () "Reorder").registerDecoder
    () "orders"

/-- An order was placed. -/
def orderPlaced (quantity : ℕ) : shop.Event () := quantity

theorem publishTrustedBytes_agrees_shopBus :
    ((shopBus.publishTrustedBytes "orders" [51]).record shopHandlers ()).trace =
      ((shopBus.publish (orderPlaced 3)).record shopHandlers ()).trace :=
  have registered : DashMap.get shopBus.decoders "orders" = some ⟨(), shop.fromSlice ()⟩ := rfl
  (shopBus.publishTrustedBytes_agrees registered rfl shopHandlers ()).1

end EventBus

end Pharos

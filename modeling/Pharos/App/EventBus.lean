import Pharos.App.Command
import Pharos.App.Service
import Pharos.Memory.DashMap

/-!
# The event bus

`pharos-app/src/event_bus.rs`.  Handlers are erased and kept in the order of their registration
under the `TypeId` of their event; a decoder ties a topic to the type its payloads decode into.
The loop over the handlers is written twice, once for a typed event and once for a decoded one.

A bus is only built by registrations, and its fields carry what they keep: a handler stands under
the type of its own event, and no handler stands in the registry twice.
-/

namespace Pharos

open Async Application

/-- Decides what happens when a handler fails during a publish. -/
inductive PublishErrorPolicy where
  | failFast
  | collectAll
  deriving DecidableEq

/-- An event of some type, behind `dyn Any`. -/
structure Application.Any (app : Application) where
  type : app.TypeId
  event : app.Event type

/-- The type a topic decodes into, with its decoder. -/
structure Application.Decoder (app : Application) where
  type : app.TypeId
  decode : List UInt8 → Except String (app.Event type)

/-- In-process event bus that dispatches domain events to typed handlers. -/
structure EventBus (app : Application) where
  handlers : DashMap app.TypeId (List app.ErasedHandler) := ∅
  decoders : DashMap String app.Decoder := ∅
  errorPolicy : PublishErrorPolicy := .failFast
  /-- the number of registrations so far -/
  registered : ℕ := 0
  keyed : ∀ type found, DashMap.get handlers type = some found → ∀ h ∈ found, h.event = type := by
    intro type found entry
    rw [DashMap.get_empty] at entry
    cases entry
  numbered : ∀ type found, DashMap.get handlers type = some found →
      ∀ h ∈ found, h.number < registered := by
    intro type found entry
    rw [DashMap.get_empty] at entry
    cases entry
  nodup : ∀ type found, DashMap.get handlers type = some found → found.Nodup := by
    intro type found entry
    rw [DashMap.get_empty] at entry
    cases entry

variable {app : Application}

/-- `downcast_ref`. -/
def Application.Any.downcastRef (any : app.Any) (type : app.TypeId) : Option (app.Event type) :=
  if same : any.type = type then some (same ▸ any.event) else none

/-- The loop over the commands that a cascading handler returned. -/
def dispatchCascaded (eventType : String) :
    List app.Cascaded → Program app.signature (Except EventBusError Unit)
  | [] => pure (.ok ())
  | command :: cascaded => do
      match ← command.dispatch with
      | .error source => pure (.error (.cascadeFailed eventType source.toText))
      | .ok () => dispatchCascaded eventType cascaded

/-- `HandlerWrapper::call`, once the event has its type again. -/
def callPlain (handler : app.ErasedHandler) (typed : app.Event handler.event) :
    Program app.signature (Except EventBusError Unit) := do
  match ← handleEvent handler typed with
  | .error source => pure (.error (.handlerError (app.eventType typed) source))
  | .ok () => pure (.ok ())

/-- `CascadingHandlerWrapper::call`, once the event has its type again. -/
def callCascading (handler : app.ErasedHandler) (typed : app.Event handler.event) :
    Program app.signature (Except EventBusError Unit) := do
  match ← handleCascading handler typed with
  | .error source => pure (.error (.handlerError (app.eventType typed) source))
  | .ok cascaded => dispatchCascaded (app.eventType typed) cascaded

/-- `ErasedHandler::call`. -/
def Application.ErasedHandler.call (handler : app.ErasedHandler) (any : app.Any) :
    Program app.signature (Except EventBusError Unit) :=
  match any.downcastRef handler.event with
  | none => pure (.error (.handlerError "<unknown>"
      "event bus invariant violated: TypeId matched but downcast failed"))
  | some typed =>
      match handler.wrapper with
      | .plain => callPlain handler typed
      | .cascading => callCascading handler typed

namespace EventBus

/-- `EventBus::with_error_policy`. -/
def withErrorPolicy (app : Application) (errorPolicy : PublishErrorPolicy) : EventBus app where
  errorPolicy := errorPolicy

/-- The handlers registered for an event type, in registration order. -/
def handlersFor (bus : EventBus app) (type : app.TypeId) : List app.ErasedHandler :=
  (DashMap.get bus.handlers type).getD []

theorem keyed_handlersFor (bus : EventBus app) {type : app.TypeId} {handler : app.ErasedHandler}
    (listed : handler ∈ bus.handlersFor type) : handler.event = type := by
  unfold handlersFor at listed
  cases found : DashMap.get bus.handlers type with
  | none => simp [found] at listed
  | some handlers =>
      rw [found] at listed
      exact bus.keyed type handlers found handler listed

theorem number_lt_registered (bus : EventBus app) {type : app.TypeId} {handler : app.ErasedHandler}
    (listed : handler ∈ bus.handlersFor type) : handler.number < bus.registered := by
  unfold handlersFor at listed
  cases found : DashMap.get bus.handlers type with
  | none => simp [found] at listed
  | some handlers =>
      rw [found] at listed
      exact bus.numbered type handlers found handler listed

theorem nodup_handlersFor (bus : EventBus app) (type : app.TypeId) :
    (bus.handlersFor type).Nodup := by
  unfold handlersFor
  cases found : DashMap.get bus.handlers type with
  | none => exact List.nodup_nil
  | some handlers => exact bus.nodup type handlers found

/-- The handler that the next registration puts into the registry. -/
def newcomer (bus : EventBus app) (type : app.TypeId) (name : String) (wrapper : Wrapper) :
    app.ErasedHandler where
  event := type
  name := name
  wrapper := wrapper
  number := bus.registered

/-- A wrapped handler goes to the end of the handlers of its event type. -/
def push (bus : EventBus app) (type : app.TypeId) (name : String) (wrapper : Wrapper) :
    EventBus app where
  handlers := DashMap.put bus.handlers type
    (bus.handlersFor type ++ [bus.newcomer type name wrapper])
  decoders := bus.decoders
  errorPolicy := bus.errorPolicy
  registered := bus.registered + 1
  keyed := by
    intro key found entry h listed
    rcases DashMap.get_put_cases entry with ⟨rfl, rfl⟩ | ⟨-, old⟩
    · rcases List.mem_append.mp listed with old | new
      · exact bus.keyed_handlersFor old
      · rw [List.mem_singleton.mp new]
        rfl
    · exact bus.keyed key found old h listed
  numbered := by
    intro key found entry h listed
    rcases DashMap.get_put_cases entry with ⟨rfl, rfl⟩ | ⟨-, old⟩
    · rcases List.mem_append.mp listed with old | new
      · exact Nat.lt_succ_of_lt (bus.number_lt_registered old)
      · rw [List.mem_singleton.mp new]
        exact Nat.lt_succ_self _
    · exact Nat.lt_succ_of_lt (bus.numbered key found old h listed)
  nodup := by
    intro key found entry
    rcases DashMap.get_put_cases entry with ⟨rfl, rfl⟩ | ⟨-, old⟩
    · -- every handler already there has a smaller number
      refine List.Nodup.append (bus.nodup_handlersFor key) (List.nodup_singleton _) ?_
      intro h listed new
      have smaller := bus.number_lt_registered listed
      rw [List.mem_singleton.mp new] at smaller
      exact Nat.lt_irrefl _ smaller
    · exact bus.nodup key found old

/-- `EventBus::register`. -/
def register (bus : EventBus app) (type : app.TypeId) (name : String) : EventBus app :=
  bus.push type name .plain

/-- `EventBus::register_cascading`. -/
def registerCascading (bus : EventBus app) (type : app.TypeId) (name : String) : EventBus app :=
  bus.push type name .cascading

/-- `EventBus::register_decoder`. -/
def registerDecoder (bus : EventBus app) (type : app.TypeId) (topic : String) : EventBus app :=
  { bus with decoders := DashMap.put bus.decoders topic ⟨type, app.fromSlice type⟩ }

/-- The loop of `publish`, with the errors collected so far. -/
def publishLoop (bus : EventBus app) {type : app.TypeId} (event : app.Event type) :
    List app.ErasedHandler → List EventBusError → Program app.signature (Except EventBusError Unit)
  | [], [] => pure (.ok ())
  | [], [error] => pure (.error error)
  | [], errors => pure (.error (.handlerErrors (app.eventType event) errors))
  | handler :: handlers, errors => do
      match ← handler.call ⟨type, event⟩ with
      | .ok () => bus.publishLoop event handlers errors
      | .error error =>
          match bus.errorPolicy with
          | .failFast => pure (.error error)
          | .collectAll => bus.publishLoop event handlers (errors ++ [error])

/-- `EventBus::publish`. -/
def publish (bus : EventBus app) {type : app.TypeId} (event : app.Event type) :
    Program app.signature (Except EventBusError Unit) :=
  match DashMap.get bus.handlers type with
  | none => pure (.ok ())
  | some handlers => bus.publishLoop event handlers []

/-- The loop of `publish_trusted_bytes`, with the errors collected so far. -/
def publishTrustedBytesLoop (bus : EventBus app) (any : app.Any) :
    List app.ErasedHandler → List EventBusError → Program app.signature (Except EventBusError Unit)
  | [], [] => pure (.ok ())
  | [], [error] => pure (.error error)
  | [], errors => pure (.error (.handlerErrors "<erased>" errors))
  | handler :: handlers, errors => do
      match ← handler.call any with
      | .ok () => bus.publishTrustedBytesLoop any handlers errors
      | .error error =>
          match bus.errorPolicy with
          | .failFast => pure (.error error)
          | .collectAll => bus.publishTrustedBytesLoop any handlers (errors ++ [error])

/-- `EventBus::publish_trusted_bytes`. -/
def publishTrustedBytes (bus : EventBus app) (topic : String) (payload : List UInt8) :
    Program app.signature (Except EventBusError Unit) :=
  match DashMap.get bus.decoders topic with
  | none => pure (.ok ())
  | some decoder =>
      match decoder.decode payload with
      | .error source => pure (.error (.decodeError topic source))
      | .ok event =>
          match DashMap.get bus.handlers decoder.type with
          | none => pure (.ok ())
          | some handlers => bus.publishTrustedBytesLoop ⟨decoder.type, event⟩ handlers []

/-- `EventBus::handler_names_for_topic`. -/
def handlerNamesForTopic (bus : EventBus app) (topic : String) : List String :=
  match DashMap.get bus.decoders topic with
  | none => []
  | some decoder =>
      match DashMap.get bus.handlers decoder.type with
      | none => []
      | some handlers => handlers.map ErasedHandler.name

/-- `EventBus::dispatch_trusted_bytes_to_handler`. -/
def dispatchTrustedBytesToHandler (bus : EventBus app) (topic : String) (payload : List UInt8)
    (handlerName : String) : Program app.signature (Except EventBusError Unit) :=
  match DashMap.get bus.decoders topic with
  | none => pure (.ok ())
  | some decoder =>
      match decoder.decode payload with
      | .error source => pure (.error (.decodeError topic source))
      | .ok event =>
          match (DashMap.get bus.handlers decoder.type).bind
            fun handlers => handlers.find? fun h => h.name = handlerName with
          | none => pure (.ok ())
          | some handler => handler.call ⟨decoder.type, event⟩

end EventBus

end Pharos

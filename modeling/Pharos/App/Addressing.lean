import Mathlib.Data.List.Nodup
import Pharos.App.Delivery

/-!
# Dispatching to one handler at a time

The outbox relay asks for the names of a topic's handlers and dispatches a payload once for each
name.  A name is `type_name` of the handler's type, and the lookup takes the first handler that
bears it.  Every handler is reached exactly when the names tell the handlers apart: two handlers of
one type share their name, and then the first is called twice and the second never.
-/

namespace Pharos

open Async Application

variable {app : Application} {σ : Type}

/-- The handler of events that an operation calls. -/
def Application.Op.receiver? : app.Op → Option app.ErasedHandler
  | .handleEvent handler _ => some handler
  | .handleCascading handler _ => some handler
  | .handleCommand _ _ => none

/-- The handlers of events that were called, in order. -/
def receivers (trace : List (Performed app.signature)) : List app.ErasedHandler :=
  trace.filterMap fun performed => Op.receiver? performed.op

theorem receivers_append (first second : List (Performed app.signature)) :
    receivers (first ++ second) = receivers first ++ receivers second :=
  List.filterMap_append

/-- The commands of a cascade call no handler of events. -/
theorem Cascade.receivers {eventType : String} {commands : List app.Cascaded}
    {trace : List (Performed app.signature)} {outcome : Except EventBusError Unit}
    (cascade : Cascade eventType commands trace outcome) : receivers trace = [] := by
  induction cascade with
  | done => rfl
  | failed command later error => rfl
  | succeeded command output rest ih => exact ih

/-- A visit calls its handler once and no other. -/
theorem VisitsAny.receivers {any : app.Any} {handler : app.ErasedHandler} {visit : Visit app}
    (visits : VisitsAny any handler visit) : receivers visit.trace = [handler] := by
  obtain ⟨event, -, visits⟩ := visits
  cases visits with
  | handled plain => rfl
  | refused plain source => rfl
  | cascaded cascading commands cascade => exact congrArg (handler :: ·) cascade.receivers
  | withheld cascading source => rfl

/-- Every handler of the list is called, whatever the others returned. -/
def callAll (any : app.Any) : List app.ErasedHandler → Program app.signature Unit
  | [] => pure ()
  | handler :: handlers => do
      let _ ← handler.call any
      callAll any handlers

section CallAll

variable {env : Environment app.signature σ} {s : σ} {any : app.Any}

theorem receivers_callAll {handlers : List app.ErasedHandler}
    (keyed : ∀ handler ∈ handlers, handler.event = any.type) :
    receivers ((callAll any handlers).record env s).trace = handlers := by
  induction handlers generalizing s with
  | nil => rfl
  | cons handler handlers ih =>
      have visits : VisitsAny any handler (visitOf ((handler.call any).record env s)) :=
        call_visits (keyed handler List.mem_cons_self)
      rw [callAll, Program.record_bind]
      show receivers (((handler.call any).record env s).trace ++ _) = _
      rw [receivers_append]
      exact congrArg₂ (· ++ ·) visits.receivers
        (ih fun other listed => keyed other (List.mem_cons_of_mem _ listed))

theorem trace_callAll_append (first second : List app.ErasedHandler) :
    ((callAll any (first ++ second)).record env s).trace =
      ((callAll any first).record env s).trace ++
        ((callAll any second).record env ((callAll any first).record env s).state).trace := by
  induction first generalizing s with
  | nil => rfl
  | cons handler handlers ih =>
      rw [List.cons_append, callAll, callAll, Program.record_bind, Program.record_bind]
      show _ ++ ((callAll any (handlers ++ second)).record env _).trace = (_ ++ _) ++ _
      rw [ih, List.append_assoc]
      rfl

end CallAll

namespace EventBus

/-- The same bus, collecting all errors. -/
def collecting (bus : EventBus app) : EventBus app := { bus with errorPolicy := .collectAll }

/-- One dispatch after the other, to the handler of each name. -/
def dispatchEach (bus : EventBus app) (topic : String) (payload : List UInt8) :
    List String → Program app.signature (List (Except EventBusError Unit))
  | [] => pure []
  | name :: names => do
      let result ← bus.dispatchTrustedBytesToHandler topic payload name
      let results ← bus.dispatchEach topic payload names
      pure (result :: results)

/-- The first handler of a type with the name. -/
def named (bus : EventBus app) (type : app.TypeId) (name : String) : Option app.ErasedHandler :=
  (bus.handlersFor type).find? fun handler => handler.name = name

section Names

variable {bus : EventBus app} {env : Environment app.signature σ} {s : σ} {topic : String}
  {payload : List UInt8} {decoder : app.Decoder}

/-- Collecting errors, the loop calls every handler. -/
theorem trace_publishTrustedBytesLoop (policy : bus.errorPolicy = .collectAll) (any : app.Any)
    (handlers : List app.ErasedHandler) (errors : List EventBusError) :
    ((bus.publishTrustedBytesLoop any handlers errors).record env s).trace =
      ((callAll any handlers).record env s).trace := by
  induction handlers generalizing errors s with
  | nil =>
      rcases errors with _ | ⟨first, _ | ⟨second, more⟩⟩
      · rfl
      · rfl
      · rfl
  | cons handler handlers ih =>
      rw [publishTrustedBytesLoop, callAll, Program.record_bind, Program.record_bind]
      cases ((handler.call any).record env s).value with
      | ok _ => exact congrArg (_ ++ ·) (ih errors)
      | error error =>
          rw [policy]
          exact congrArg (_ ++ ·) (ih (errors ++ [error]))

/-- The names of a topic are those of the handlers of its type. -/
theorem handlerNamesForTopic_eq (registered : DashMap.get bus.decoders topic = some decoder) :
    bus.handlerNamesForTopic topic = (bus.handlersFor decoder.type).map ErasedHandler.name := by
  unfold handlerNamesForTopic handlersFor
  simp only [registered]
  cases DashMap.get bus.handlers decoder.type with
  | none => rfl
  | some handlers => rfl

/-- A payload that does not decode reaches no handler. -/
theorem dispatchTrustedBytesToHandler_of_error {source : String}
    (registered : DashMap.get bus.decoders topic = some decoder)
    (rejected : decoder.decode payload = .error source) (name : String) :
    bus.dispatchTrustedBytesToHandler topic payload name =
      pure (.error (.decodeError topic source)) := by
  unfold dispatchTrustedBytesToHandler
  simp only [registered, rejected]

/-- A payload that decodes goes to the first handler with the name. -/
theorem dispatchTrustedBytesToHandler_eq {event : app.Event decoder.type}
    (registered : DashMap.get bus.decoders topic = some decoder)
    (decoded : decoder.decode payload = .ok event) (name : String) :
    bus.dispatchTrustedBytesToHandler topic payload name =
      (bus.named decoder.type name).elim (pure (.ok ())) fun handler =>
        handler.call ⟨decoder.type, event⟩ := by
  unfold dispatchTrustedBytesToHandler named handlersFor
  simp only [registered, decoded]
  cases DashMap.get bus.handlers decoder.type with
  | none => rfl
  | some handlers =>
      simp only [Option.bind_some, Option.getD_some]
      cases handlers.find? fun handler => handler.name = name with
      | none => rfl
      | some handler => rfl

theorem trace_dispatchTrustedBytesToHandler {event : app.Event decoder.type}
    (registered : DashMap.get bus.decoders topic = some decoder)
    (decoded : decoder.decode payload = .ok event) (name : String) :
    ((bus.dispatchTrustedBytesToHandler topic payload name).record env s).trace =
        ((callAll ⟨decoder.type, event⟩ (bus.named decoder.type name).toList).record env s).trace ∧
      ((bus.dispatchTrustedBytesToHandler topic payload name).record env s).state =
        ((callAll ⟨decoder.type, event⟩ (bus.named decoder.type name).toList).record env s).state := by
  rw [dispatchTrustedBytesToHandler_eq registered decoded]
  cases bus.named decoder.type name with
  | none => exact ⟨rfl, rfl⟩
  | some handler =>
      rw [Option.toList_some, callAll, Program.record_bind]
      exact ⟨(List.append_nil _).symm, rfl⟩

/-- A payload that does not decode is dispatched to nobody. -/
theorem trace_dispatchEach_of_error {source : String}
    (registered : DashMap.get bus.decoders topic = some decoder)
    (rejected : decoder.decode payload = .error source) (names : List String) :
    ((bus.dispatchEach topic payload names).record env s).trace = [] := by
  induction names with
  | nil => rfl
  | cons name names ih =>
      rw [dispatchEach, dispatchTrustedBytesToHandler_of_error registered rejected]
      rw [Program.record_bind, Program.record_pure, Program.record_bind]
      exact congrArg (· ++ []) ih

/-- A payload that decodes is dispatched to the first handler with each name. -/
theorem trace_dispatchEach {event : app.Event decoder.type}
    (registered : DashMap.get bus.decoders topic = some decoder)
    (decoded : decoder.decode payload = .ok event) (names : List String) :
    ((bus.dispatchEach topic payload names).record env s).trace =
      ((callAll ⟨decoder.type, event⟩
        (names.filterMap (bus.named decoder.type))).record env s).trace := by
  induction names generalizing s with
  | nil => rfl
  | cons name names ih =>
      have found : (name :: names).filterMap (bus.named decoder.type) =
          (bus.named decoder.type name).toList ++ names.filterMap (bus.named decoder.type) := by
        rw [List.filterMap_eq_flatMap_toList, List.filterMap_eq_flatMap_toList, List.flatMap_cons]
      obtain ⟨did, left⟩ := trace_dispatchTrustedBytesToHandler registered decoded name
      rw [found, trace_callAll_append, ← did, ← left, ← ih, dispatchEach, Program.record_bind,
        Program.record_bind]
      exact congrArg (_ ++ ·) (List.append_nil _)

end Names

theorem mem_of_named (bus : EventBus app) {type : app.TypeId} {name : String}
    {handler : app.ErasedHandler} (found : bus.named type name = some handler) :
    handler ∈ bus.handlersFor type :=
  List.mem_of_find?_eq_some found

theorem keyed_of_named (bus : EventBus app) {type : app.TypeId} {names : List String}
    {handler : app.ErasedHandler} (found : handler ∈ names.filterMap (bus.named type)) :
    handler.event = type := by
  obtain ⟨name, -, found⟩ := List.mem_filterMap.mp found
  exact bus.keyed_handlersFor (bus.mem_of_named found)

/-- The dispatches for the names of a topic. -/
theorem trace_dispatch_names (bus : EventBus app) {topic : String} {payload : List UInt8}
    {decoder : app.Decoder} {event : app.Event decoder.type}
    (registered : DashMap.get bus.decoders topic = some decoder)
    (decoded : decoder.decode payload = .ok event) (env : Environment app.signature σ) (s : σ) :
    ((bus.dispatchEach topic payload (bus.handlerNamesForTopic topic)).record env s).trace =
      ((callAll ⟨decoder.type, event⟩ (((bus.handlersFor decoder.type).map
        ErasedHandler.name).filterMap (bus.named decoder.type))).record env s).trace := by
  rw [handlerNamesForTopic_eq registered]
  exact trace_dispatchEach registered decoded _

theorem exists_named (bus : EventBus app) {type : app.TypeId} {handler : app.ErasedHandler}
    (listed : handler ∈ bus.handlersFor type) :
    ∃ found, bus.named type handler.name = some found := by
  apply Option.isSome_iff_exists.mp
  exact List.find?_isSome.mpr ⟨handler, listed, decide_eq_true rfl⟩

/-- When looking every name up yields the handlers again, each is found by its own name. -/
theorem named_of_filterMap_eq (bus : EventBus app) {type : app.TypeId}
    (all : (bus.handlersFor type).filterMap (bus.named type ∘ ErasedHandler.name) =
      bus.handlersFor type) :
    ∀ handler ∈ bus.handlersFor type, bus.named type handler.name = some handler := by
  have found : (bus.handlersFor type).filterMap (bus.named type ∘ ErasedHandler.name) =
      (bus.handlersFor type).map fun handler => (bus.named type handler.name).getD handler := by
    rw [← List.filterMap_eq_map]
    refine List.filterMap_congr fun handler listed => ?_
    obtain ⟨first, which⟩ := bus.exists_named listed
    simp [which]
  rw [found] at all
  intro handler listed
  obtain ⟨first, which⟩ := bus.exists_named listed
  have self := List.map_inj_left.mp (all.trans (List.map_id _).symm) handler listed
  rw [which] at self ⊢
  exact congrArg some self

/-- Names that tell the handlers apart find each of them, and only such names do. -/
theorem filterMap_named_iff (bus : EventBus app) (type : app.TypeId) :
    ((bus.handlersFor type).map ErasedHandler.name).filterMap (bus.named type) =
        bus.handlersFor type ↔
      ((bus.handlersFor type).map ErasedHandler.name).Nodup := by
  rw [List.filterMap_map, List.nodup_map_iff_inj_on (bus.nodup_handlersFor type)]
  constructor
  · intro all first listed second listed' same
    have one := bus.named_of_filterMap_eq all first listed
    have other := bus.named_of_filterMap_eq all second listed'
    rw [same, other] at one
    exact (Option.some.inj one).symm
  · intro apart
    refine (List.filterMap_congr fun handler listed => ?_).trans List.filterMap_some
    obtain ⟨found, which⟩ := bus.exists_named listed
    have alike := List.find?_some which
    have same := apart found (bus.mem_of_named which) handler listed
      (of_decide_eq_true alike)
    exact same ▸ which

/-- One dispatch for each name of the topic performs what a publish that collects errors performs,
and calls every handler of the decoded type once, in registration order. -/
def CoversEveryHandler (bus : EventBus app) (topic : String) (payload : List UInt8)
    (env : Environment app.signature σ) (s : σ) : Prop :=
  let each := (bus.dispatchEach topic payload (bus.handlerNamesForTopic topic)).record env s
  each.trace = ((bus.collecting.publishTrustedBytes topic payload).record env s).trace ∧
    ∀ decoder event, DashMap.get bus.decoders topic = some decoder →
      decoder.decode payload = .ok event → receivers each.trace = bus.handlersFor decoder.type

/-- **Dispatching by name covers every handler exactly when the names tell the handlers apart**, or
when the payload does not decode, so that there is nobody to call. -/
theorem coversEveryHandler_iff (bus : EventBus app) {topic : String} {payload : List UInt8}
    {decoder : app.Decoder} (registered : DashMap.get bus.decoders topic = some decoder)
    (env : Environment app.signature σ) (s : σ) :
    bus.CoversEveryHandler topic payload env s ↔
      (∃ source, decoder.decode payload = .error source) ∨
        ((bus.handlersFor decoder.type).map ErasedHandler.name).Nodup := by
  cases decoded : decoder.decode payload with
  | error source =>
      refine ⟨fun _ => .inl ⟨source, rfl⟩, fun _ => ⟨?_, ?_⟩⟩
      · rw [trace_dispatchEach_of_error registered decoded]
        have silent : bus.collecting.publishTrustedBytes topic payload =
            pure (.error (.decodeError topic source)) := by
          unfold publishTrustedBytes collecting
          simp only [registered, decoded]
        rw [silent]
        rfl
      · intro other event registered' decoded'
        rw [registered] at registered'
        cases registered'
        rw [decoded] at decoded'
        cases decoded'
  | ok event =>
      have together : ((bus.collecting.publishTrustedBytes topic payload).record env s).trace =
          ((callAll ⟨decoder.type, event⟩ (bus.handlersFor decoder.type)).record env s).trace := by
        have registered' : DashMap.get bus.collecting.decoders topic = some decoder := registered
        rw [publishTrustedBytes_eq registered' decoded]
        exact trace_publishTrustedBytesLoop rfl _ _ _
      have each := bus.trace_dispatch_names registered decoded env s
      constructor
      · intro covers
        have all := covers.2 decoder event registered decoded
        rw [each, receivers_callAll fun _ listed => bus.keyed_of_named listed] at all
        exact .inr ((bus.filterMap_named_iff decoder.type).mp all)
      · rintro (⟨source, rejected⟩ | apart)
        · cases rejected
        · rw [(bus.filterMap_named_iff decoder.type).mpr apart] at each
          refine ⟨each.trans together.symm, fun other event' registered' _ => ?_⟩
          rw [registered] at registered'
          cases registered'
          rw [each]
          exact receivers_callAll fun _ listed => bus.keyed_handlersFor listed

/-- A bus with two handlers of one type. -/
def twinBus : EventBus shop :=
  (((withErrorPolicy shop .collectAll).register () "Audit").register () "Audit").registerDecoder
    () "orders"

theorem coversEveryHandler_iff_shopBus :
    shopBus.CoversEveryHandler "orders" [51] shopHandlers () :=
  have registered : DashMap.get shopBus.decoders "orders" = some ⟨(), shop.fromSlice ()⟩ := rfl
  (shopBus.coversEveryHandler_iff registered shopHandlers ()).mpr (.inr (by decide))

/-- The first of two handlers of one type is called twice, the second never. -/
theorem twinBus_not_coversEveryHandler :
    ¬ twinBus.CoversEveryHandler "orders" [51] shopHandlers () := by
  intro covers
  have all := covers.2 ⟨(), shop.fromSlice ()⟩ (orderPlaced 3) rfl rfl
  have numbers : [0, 0] = [0, 1] := congrArg (List.map ErasedHandler.number) all
  cases numbers

end EventBus

end Pharos

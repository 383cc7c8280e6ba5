import Pharos.App.Addressing
import Pharos.Async.Control

/-!
# Who sees an invalid command

Every path of the framework that ends at `CommandHandler::handle`: `dispatch`, the tower service,
the axum extractor, and the commands that a publish cascades, of an event or of bytes.  A path
guards its handlers when no command that fails its own validation is handed to one, and a caller
that brought such a command, or whose cascades did, is told of a failure.

The first three validate before they hand over.  A cascaded command is handed over as it stands, so
a publish guards the handlers exactly when the cascades return valid commands only.
-/

namespace Pharos

open Async Application EventBus

variable {app : Application}

/-- The ways into the framework that can reach a command handler. -/
inductive EntryPath (app : Application) where
  | dispatch {kind : app.Kind} (handler : app.Handler kind) (command : app.Command kind)
  | tower {kind : app.Kind} (handler : app.Handler kind) (command : app.Command kind)
  | axum {kind : app.Kind} (handler : app.Handler kind) (command : app.Command kind)
  | publish {type : app.TypeId} (event : app.Event type)
  | publishTrustedBytes (topic : String) (payload : List UInt8)
  | dispatchTrustedBytesToHandler (topic : String) (payload : List UInt8) (handlerName : String)

/-- The commands that an operation brings in when it is answered. -/
def Application.Op.cascaded : (op : app.Op) → app.signature.Reply op → List app.Cascaded
  | .handleCascading _ _, .ok commands => commands
  | _, _ => []

/-- A cascading handler that succeeds returns the commands that `returned` has for it. -/
def Application.Op.Follows (returned : app.ErasedHandler → List app.Cascaded) :
    (op : app.Op) → app.signature.Reply op → Prop
  | .handleCascading handler _, .ok commands => commands = returned handler
  | _, _ => True

/-- A command that is handed to its handler is valid. -/
def Application.Op.HandsOverValid : app.Op → Prop
  | .handleCommand _ command => Valid command
  | _ => True

/-- The commands that were cascaded so far. -/
def cascadedIn (past : List (Event app.signature Unit)) : List app.Cascaded :=
  past.flatMap fun event => Op.cascaded event.op event.reply

/-- The cascading handlers returned what `returned` has for them. -/
def FollowsAll (returned : app.ErasedHandler → List app.Cascaded)
    (past : List (Event app.signature Unit)) : Prop :=
  ∀ event ∈ past, Op.Follows returned event.op event.reply

/-- While the cascading handlers return what `returned` has for them, `program` hands valid commands
over only, and fails when an invalid one came in, with the call or by a cascade. -/
def Guards {ε α : Type} (returned : app.ErasedHandler → List app.Cascaded)
    (entering : List app.Cascaded) (program : Program app.signature (Except ε α)) : Prop :=
  program.Obeys
    (fun past op => FollowsAll returned past → Op.HandsOverValid op)
    (fun past result => FollowsAll returned past →
      (∃ cascaded ∈ entering ++ cascadedIn past, ¬ Valid cascaded.command) → result.isOk = false) []

namespace EntryPath

/-- The path guards the handlers. -/
def Guarded (bus : EventBus app) (returned : app.ErasedHandler → List app.Cascaded) :
    EntryPath app → Prop
  | .dispatch handler command =>
      Guards returned [⟨_, handler, command⟩] (Pharos.dispatch handler command)
  | .tower handler command =>
      Guards returned [⟨_, handler, command⟩] (CommandHandlerService.call handler command)
  | .axum handler command =>
      Guards returned [⟨_, handler, command⟩] (CommandHandlerState.dispatch handler command)
  | .publish event => Guards returned [] (bus.publish event)
  | .publishTrustedBytes topic payload => Guards returned [] (bus.publishTrustedBytes topic payload)
  | .dispatchTrustedBytesToHandler topic payload handlerName =>
      Guards returned [] (bus.dispatchTrustedBytesToHandler topic payload handlerName)

/-- The event that a payload on a topic decodes into. -/
def decoded (bus : EventBus app) (topic : String) (payload : List UInt8) : Option app.Any :=
  (DashMap.get bus.decoders topic).bind fun decoder =>
    (decoder.decode payload).toOption.map fun event => ⟨decoder.type, event⟩

/-- The handlers of events that the path delivers to. -/
def receivers (bus : EventBus app) : EntryPath app → List app.ErasedHandler
  | .dispatch _ _ => []
  | .tower _ _ => []
  | .axum _ _ => []
  | @publish _ type _ => bus.handlersFor type
  | .publishTrustedBytes topic payload =>
      (decoded bus topic payload).elim [] fun any => bus.handlersFor any.type
  | .dispatchTrustedBytesToHandler topic payload handlerName =>
      (decoded bus topic payload).elim [] fun any => (bus.named any.type handlerName).toList

end EntryPath

/-! ## Cascades of valid commands -/

section Clean

variable {returned : app.ErasedHandler → List app.Cascaded}

/-- What may be performed after `past`. -/
def MayPerform (returned : app.ErasedHandler → List app.Cascaded)
    (past : List (Event app.signature Unit)) (op : app.Op) : Prop :=
  FollowsAll returned past → Op.HandsOverValid op

/-- Every command that was cascaded is valid. -/
def Clean (returned : app.ErasedHandler → List app.Cascaded)
    (past : List (Event app.signature Unit)) : Prop :=
  FollowsAll returned past → ∀ cascaded ∈ cascadedIn past, Valid cascaded.command

/-- The commands that the handler returns are valid. -/
def ReturnsValid (returned : app.ErasedHandler → List app.Cascaded)
    (handler : app.ErasedHandler) : Prop :=
  handler.wrapper = .cascading → ∀ cascaded ∈ returned handler, Valid cascaded.command

theorem FollowsAll.tail {event : Event app.signature Unit} {past : List (Event app.signature Unit)}
    (follows : FollowsAll returned (event :: past)) : FollowsAll returned past :=
  fun other listed => follows other (List.mem_cons_of_mem _ listed)

/-- A cascade of valid commands hands valid commands over. -/
theorem dispatchCascaded_clean {eventType : String} {commands : List app.Cascaded}
    {past : List (Event app.signature Unit)}
    (valid : FollowsAll returned past → ∀ cascaded ∈ commands, Valid cascaded.command)
    (clean : Clean returned past) :
    (dispatchCascaded eventType commands).Obeys (MayPerform returned)
      (fun past _ => Clean returned past) past := by
  induction commands generalizing past with
  | nil => exact clean
  | cons command later ih =>
      have now : MayPerform returned past (.handleCommand command.handler command.command) :=
        fun follows => valid follows command List.mem_cons_self
      rw [dispatchCascaded]
      refine .bind (Q := fun past' _ => Clean returned past' ∧
        (FollowsAll returned past' → FollowsAll returned past)) ?_ ?_
      · refine .call (S := app.signature) now fun _ reply => ?_
        have kept : Clean returned (⟨(), .handleCommand command.handler command.command, reply⟩ ::
            past) := fun follows => clean follows.tail
        cases reply with
        | error error => exact ⟨kept, FollowsAll.tail⟩
        | ok output => exact ⟨kept, FollowsAll.tail⟩
      · intro past' result known
        cases result with
        | error error => exact known.1
        | ok _ =>
            refine ih (fun follows => ?_) known.1
            exact fun cascaded listed =>
              valid (known.2 follows) cascaded (List.mem_cons_of_mem _ listed)

/-- A handler that returns valid commands only is called cleanly. -/
theorem call_clean {any : app.Any} {handler : app.ErasedHandler}
    {past : List (Event app.signature Unit)} (returns : ReturnsValid returned handler)
    (clean : Clean returned past) :
    (handler.call any).Obeys (MayPerform returned) (fun past _ => Clean returned past) past := by
  rw [ErasedHandler.call]
  cases any.downcastRef handler.event with
  | none => exact clean
  | some typed =>
      cases wrapped : handler.wrapper with
      | plain =>
          refine .call (S := app.signature) (fun _ => trivial) fun _ reply => ?_
          have kept : Clean returned (⟨(), .handleEvent handler typed, reply⟩ :: past) :=
            fun follows => clean follows.tail
          cases reply with
          | error source => exact kept
          | ok _ => exact kept
      | cascading =>
          refine .call (S := app.signature) (fun _ => trivial) fun _ reply => ?_
          cases reply with
          | error source => exact fun follows => clean follows.tail
          | ok commands =>
              have valid : FollowsAll returned
                  (⟨(), .handleCascading handler typed, .ok commands⟩ :: past) →
                    ∀ cascaded ∈ commands, Valid cascaded.command := by
                intro follows
                have own : commands = returned handler := follows _ List.mem_cons_self
                rw [own]
                exact returns wrapped
              refine dispatchCascaded_clean valid fun follows cascaded listed => ?_
              rcases List.mem_append.mp listed with new | old
              · exact valid follows cascaded new
              · exact clean follows.tail cascaded old

/-- A loop that calls the handlers one after the other. -/
structure CallsInTurn (any : app.Any)
    (loop : List app.ErasedHandler → List EventBusError →
      Program app.signature (Except EventBusError Unit)) : Prop where
  nil : ∀ errors, ∃ result, loop [] errors = pure result
  cons : ∀ handler handlers errors, ∃ next, loop (handler :: handlers) errors =
    handler.call any >>= next ∧ next (.ok ()) = loop handlers errors ∧
      ∀ error, (∃ value, next (.error error) = pure value) ∨
        ∃ more, next (.error error) = loop handlers more

/-- Handlers that return valid commands only are called cleanly, one after the other. -/
theorem CallsInTurn.clean {any : app.Any}
    {loop : List app.ErasedHandler → List EventBusError →
      Program app.signature (Except EventBusError Unit)} (inTurn : CallsInTurn any loop)
    {handlers : List app.ErasedHandler} {errors : List EventBusError}
    {past : List (Event app.signature Unit)}
    (returns : ∀ handler ∈ handlers, ReturnsValid returned handler) (clean : Clean returned past) :
    (loop handlers errors).Obeys (MayPerform returned) (fun past _ => Clean returned past) past := by
  induction handlers generalizing errors past with
  | nil =>
      obtain ⟨result, ends⟩ := inTurn.nil errors
      rw [ends]
      exact clean
  | cons handler handlers ih =>
      obtain ⟨next, calls, goes, stops⟩ := inTurn.cons handler handlers errors
      have later : ∀ other ∈ handlers, ReturnsValid returned other :=
        fun other listed => returns other (List.mem_cons_of_mem _ listed)
      rw [calls]
      refine .bind (call_clean (returns handler List.mem_cons_self) clean) fun past result kept => ?_
      cases result with
      | ok _ =>
          rw [goes]
          exact ih later kept
      | error error =>
          rcases stops error with ⟨value, ends⟩ | ⟨more, continues⟩
          · rw [ends]
            exact kept
          · rw [continues]
            exact ih later kept

theorem callsInTurn_publishLoop (bus : EventBus app) {type : app.TypeId} (event : app.Event type) :
    CallsInTurn ⟨type, event⟩ (bus.publishLoop event) where
  nil errors := by
    rcases errors with _ | ⟨first, _ | ⟨second, more⟩⟩
    · exact ⟨_, rfl⟩
    · exact ⟨_, rfl⟩
    · exact ⟨_, rfl⟩
  cons handler handlers errors := by
    refine ⟨_, rfl, rfl, fun error => ?_⟩
    cases bus.errorPolicy with
    | failFast => exact .inl ⟨_, rfl⟩
    | collectAll => exact .inr ⟨_, rfl⟩

theorem callsInTurn_publishTrustedBytesLoop (bus : EventBus app) (any : app.Any) :
    CallsInTurn any (bus.publishTrustedBytesLoop any) where
  nil errors := by
    rcases errors with _ | ⟨first, _ | ⟨second, more⟩⟩
    · exact ⟨_, rfl⟩
    · exact ⟨_, rfl⟩
    · exact ⟨_, rfl⟩
  cons handler handlers errors := by
    refine ⟨_, rfl, rfl, fun error => ?_⟩
    cases bus.errorPolicy with
    | failFast => exact .inl ⟨_, rfl⟩
    | collectAll => exact .inr ⟨_, rfl⟩

theorem clean_nil : Clean returned [] := by
  intro _ cascaded listed
  cases listed

/-- Where every cascaded command is valid, there is no failure to report. -/
theorem guards_of_clean {ε α : Type} {program : Program app.signature (Except ε α)}
    (clean : program.Obeys (MayPerform returned) (fun past _ => Clean returned past) []) :
    Guards returned [] program := by
  refine clean.mono fun past result clean follows invalid => ?_
  obtain ⟨cascaded, listed, rejected⟩ := invalid
  exact (rejected (clean follows cascaded listed)).elim

/-- `dispatch` validates before it hands over. -/
theorem guards_dispatch {kind : app.Kind} (handler : app.Handler kind) (command : app.Command kind) :
    Guards returned [⟨kind, handler, command⟩] (dispatch handler command) := by
  unfold Guards dispatch
  cases validated : app.validateInput command with
  | error error => exact fun _ _ => rfl
  | ok _ =>
      refine .call (S := app.signature) (fun _ => validated) fun _ reply => ?_
      cases reply with
      | error error => exact fun _ _ => rfl
      | ok output =>
          intro _ invalid
          obtain ⟨cascaded, listed, rejected⟩ := invalid
          rw [List.mem_singleton.mp listed] at rejected
          exact (rejected validated).elim

/-- The extractor refuses internal commands, and validates the others. -/
theorem guards_axum {kind : app.Kind} (handler : app.Handler kind) (command : app.Command kind) :
    Guards returned [⟨kind, handler, command⟩] (CommandHandlerState.dispatch handler command) := by
  unfold CommandHandlerState.dispatch
  split
  · exact fun _ _ => rfl
  · exact guards_dispatch handler command

end Clean

/-! ## Runs in which every handler succeeds -/

section Smooth

variable {returned : app.ErasedHandler → List app.Cascaded}

/-- Every handler succeeds, and the cascading ones return what `returned` has for them. -/
noncomputable def smooth (returned : app.ErasedHandler → List app.Cascaded) :
    Environment app.signature Unit
  | (), .handleEvent _ _ => ((), .ok ())
  | (), .handleCascading handler _ => ((), .ok (returned handler))
  | (), .handleCommand handler _ => ((), .ok (app.succeeds handler).some)

theorem follows_smooth (op : app.Op) : Op.Follows returned op (smooth returned () op).2 := by
  cases op with
  | handleEvent handler event => trivial
  | handleCascading handler event => rfl
  | handleCommand handler command => trivial

/-- Every command of the list was handed to its handler. -/
def HandedOver (commands : List app.Cascaded) (trace : List (Performed app.signature)) : Prop :=
  ∀ cascaded ∈ commands,
    ∃ performed ∈ trace, performed.op = .handleCommand cascaded.handler cascaded.command

theorem dispatchCascaded_smooth (returned : app.ErasedHandler → List app.Cascaded)
    (eventType : String) (commands : List app.Cascaded) :
    let run := (dispatchCascaded eventType commands).record (smooth returned) ()
    HandedOver commands run.trace ∧ run.value = .ok () := by
  induction commands with
  | nil => exact ⟨fun _ listed => (by cases listed), rfl⟩
  | cons command later ih =>
      have succeeds : (smooth returned () (.handleCommand command.handler command.command)).2 =
          .ok (app.succeeds command.handler).some := rfl
      intro run
      have ran : run = ((dispatchCascaded eventType later).record (smooth returned) ()).preceded
          [⟨.handleCommand command.handler command.command,
            .ok (app.succeeds command.handler).some⟩] := by
        show (dispatchCascaded eventType (command :: later)).record (smooth returned) () = _
        rw [dispatchCascaded, Program.record_bind, record_dispatch_of_ok succeeds]
      rw [ran]
      refine ⟨fun cascaded listed => ?_, ih.2⟩
      rcases List.mem_cons.mp listed with rfl | old
      · exact ⟨_, List.mem_cons_self, rfl⟩
      · obtain ⟨performed, member, same⟩ := ih.1 cascaded old
        exact ⟨performed, List.mem_cons_of_mem _ member, same⟩

/-- A cascading handler hands over all it returns. -/
theorem call_smooth {any : app.Any} {handler : app.ErasedHandler} (keyed : handler.event = any.type) :
    let run := (handler.call any).record (smooth returned) ()
    (handler.wrapper = .cascading → HandedOver (returned handler) run.trace) ∧ run.value = .ok () := by
  obtain ⟨type, event⟩ := any
  cases keyed
  have typed : Any.downcastRef (⟨handler.event, event⟩ : app.Any) handler.event = some event :=
    dif_pos rfl
  intro run
  cases wrapped : handler.wrapper with
  | plain =>
      have ran : run = (callPlain handler event).record (smooth returned) () := by
        show (handler.call _).record _ () = _
        rw [ErasedHandler.call, typed, wrapped]
      rw [ran]
      exact ⟨fun cascading => (by cases cascading), rfl⟩
  | cascading =>
      have ran : run = (callCascading handler event).record (smooth returned) () := by
        show (handler.call _).record _ () = _
        rw [ErasedHandler.call, typed, wrapped]
      obtain ⟨handed, ends⟩ :=
        dispatchCascaded_smooth returned (app.eventType event) (returned handler)
      rw [ran]
      refine ⟨fun _ cascaded listed => ?_, ends⟩
      obtain ⟨performed, member, same⟩ := handed cascaded listed
      exact ⟨performed, List.mem_cons_of_mem _ member, same⟩

theorem HandedOver.mono {commands : List app.Cascaded} {first second : List (Performed app.signature)}
    (handed : HandedOver commands first) (subset : first ⊆ second) : HandedOver commands second := by
  intro cascaded listed
  obtain ⟨performed, member, same⟩ := handed cascaded listed
  exact ⟨performed, subset member, same⟩

/-- Every handler of the loop has its turn. -/
theorem CallsInTurn.smooth {any : app.Any}
    {loop : List app.ErasedHandler → List EventBusError →
      Program app.signature (Except EventBusError Unit)} (inTurn : CallsInTurn any loop)
    {handlers : List app.ErasedHandler} {errors : List EventBusError}
    (keyed : ∀ handler ∈ handlers, handler.event = any.type) :
    ∀ handler ∈ handlers, handler.wrapper = .cascading → HandedOver (returned handler)
      ((loop handlers errors).record (smooth returned) ()).trace := by
  induction handlers with
  | nil =>
      intro handler listed
      cases listed
  | cons first handlers ih =>
      obtain ⟨next, calls, goes, -⟩ := inTurn.cons first handlers errors
      obtain ⟨handed, ends⟩ := call_smooth (keyed first List.mem_cons_self)
      intro handler listed cascading
      rw [calls, Program.record_bind, ends, goes]
      rcases List.mem_cons.mp listed with rfl | old
      · exact (handed cascading).mono (List.subset_append_left _ _)
      · have later : ∀ other ∈ handlers, other.event = any.type :=
          fun other listed => keyed other (List.mem_cons_of_mem _ listed)
        exact (ih later handler old cascading).mono (List.subset_append_right _ _)

/-- A program that guards the handlers is handed no invalid command by a smooth run. -/
theorem Guards.valid {ε α : Type} {entering : List app.Cascaded}
    {program : Program app.signature (Except ε α)} (guards : Guards returned entering program)
    {commands : List app.Cascaded}
    (handed : HandedOver commands (program.record (smooth returned) ()).trace) :
    ∀ cascaded ∈ commands, Valid cascaded.command := by
  intro cascaded listed
  obtain ⟨performed, member, same⟩ := handed cascaded listed
  have allowed : ∃ earlier, FollowsAll returned earlier ∧ MayPerform returned earlier performed.op :=
    Program.Obeys.performed () guards (fun _ listed => by cases listed)
      (fun _ op => follows_smooth op) performed member
  obtain ⟨earlier, follows, valid⟩ := allowed
  have handsOver := valid follows
  rw [same] at handsOver
  exact handsOver

end Smooth

namespace EntryPath

variable {bus : EventBus app} {returned : app.ErasedHandler → List app.Cascaded}

/-- A publish guards the handlers exactly when those it calls return valid commands. -/
theorem guards_loop_iff {any : app.Any}
    {loop : List app.ErasedHandler → List EventBusError →
      Program app.signature (Except EventBusError Unit)} (inTurn : CallsInTurn any loop)
    {handlers : List app.ErasedHandler} (keyed : ∀ handler ∈ handlers, handler.event = any.type) :
    Guards returned [] (loop handlers []) ↔ ∀ handler ∈ handlers, ReturnsValid returned handler := by
  constructor
  · intro guards handler listed cascading
    exact guards.valid (inTurn.smooth keyed handler listed cascading)
  · intro returns
    exact guards_of_clean (inTurn.clean returns clean_nil)

/-- One call guards the handlers exactly when the handler returns valid commands. -/
theorem guards_call_iff {any : app.Any} {handler : app.ErasedHandler}
    (keyed : handler.event = any.type) :
    Guards returned [] (handler.call any) ↔ ReturnsValid returned handler :=
  ⟨fun guards cascading => guards.valid ((call_smooth keyed).1 cascading),
    fun returns => guards_of_clean (call_clean returns clean_nil)⟩

/-- A path that calls nobody guards the handlers. -/
theorem guards_pure {ε α : Type} (result : Except ε α) :
    Guards returned [] (pure result : Program app.signature (Except ε α)) :=
  guards_of_clean clean_nil

/-- What becomes of a payload on a topic. -/
theorem decoded_cases (bus : EventBus app) (topic : String) (payload : List UInt8) :
    (decoded bus topic payload = none ∧
      (∃ result, bus.publishTrustedBytes topic payload = pure result) ∧
      ∀ name, ∃ result, bus.dispatchTrustedBytesToHandler topic payload name = pure result) ∨
    ∃ decoder, ∃ event : app.Event decoder.type,
      DashMap.get bus.decoders topic = some decoder ∧ decoder.decode payload = .ok event ∧
        decoded bus topic payload = some ⟨decoder.type, event⟩ := by
  unfold decoded EventBus.publishTrustedBytes EventBus.dispatchTrustedBytesToHandler
  cases DashMap.get bus.decoders topic with
  | none => exact .inl ⟨rfl, ⟨_, rfl⟩, fun _ => ⟨_, rfl⟩⟩
  | some decoder =>
      cases answer : decoder.decode payload with
      | error source =>
          refine .inl ⟨by simp [answer, Except.toOption], ?_, fun _ => ?_⟩
          · exact ⟨.error (.decodeError topic source), by simp only [answer]⟩
          · exact ⟨.error (.decodeError topic source), by simp only [answer]⟩
      | ok event => exact .inr ⟨decoder, event, rfl, answer, by simp [answer, Except.toOption]⟩

/-- **The framework guards the command handlers exactly when the cascades it runs return valid
commands.**  The direct paths always do: they call no handler of events. -/
theorem guarded_iff (bus : EventBus app) (path : EntryPath app)
    (returned : app.ErasedHandler → List app.Cascaded) :
    path.Guarded bus returned ↔ ∀ handler ∈ path.receivers bus, handler.wrapper = .cascading →
      ∀ cascaded ∈ returned handler, Valid cascaded.command := by
  cases path with
  | dispatch handler command =>
      exact ⟨fun _ _ listed => (by cases listed), fun _ => guards_dispatch handler command⟩
  | tower handler command =>
      exact ⟨fun _ _ listed => (by cases listed), fun _ => guards_dispatch handler command⟩
  | axum handler command =>
      exact ⟨fun _ _ listed => (by cases listed), fun _ => guards_axum handler command⟩
  | publish event =>
      show Guards returned [] (bus.publish event) ↔ _
      rw [EventBus.publish_eq]
      exact guards_loop_iff (callsInTurn_publishLoop bus event)
        fun _ listed => bus.keyed_handlersFor listed
  | publishTrustedBytes topic payload =>
      show Guards returned [] (bus.publishTrustedBytes topic payload) ↔ _
      rcases decoded_cases bus topic payload with
        ⟨lost, ⟨result, ends⟩, -⟩ | ⟨decoder, event, registered, answer, found⟩
      · rw [ends]
        simp only [receivers, lost, Option.elim_none]
        exact ⟨fun _ _ listed => (by cases listed), fun _ => guards_pure result⟩
      · rw [EventBus.publishTrustedBytes_eq registered answer]
        simp only [receivers, found, Option.elim_some]
        exact guards_loop_iff (callsInTurn_publishTrustedBytesLoop bus ⟨decoder.type, event⟩)
          fun _ listed => bus.keyed_handlersFor listed
  | dispatchTrustedBytesToHandler topic payload name =>
      show Guards returned [] (bus.dispatchTrustedBytesToHandler topic payload name) ↔ _
      rcases decoded_cases bus topic payload with
        ⟨lost, -, ends⟩ | ⟨decoder, event, registered, answer, found⟩
      · obtain ⟨result, ends⟩ := ends name
        rw [ends]
        simp only [receivers, lost, Option.elim_none]
        exact ⟨fun _ _ listed => (by cases listed), fun _ => guards_pure result⟩
      · rw [EventBus.dispatchTrustedBytesToHandler_eq registered answer]
        simp only [receivers, found, Option.elim_some]
        cases which : bus.named decoder.type name with
        | none => exact ⟨fun _ _ listed => (by cases listed), fun _ => guards_pure _⟩
        | some handler =>
            rw [Option.toList_some, List.forall_mem_singleton]
            exact guards_call_iff (bus.keyed_handlersFor (bus.mem_of_named which))

/-- A bus whose one handler reorders. -/
def reorderBus : EventBus shop := (EventBus.withErrorPolicy shop .failFast).registerCascading () "Reorder"

/-- An order of nothing. -/
def emptyOrder : shop.Cascaded where
  kind := ()
  handler := ()
  command := (0 : ℕ)

/-- An empty order that is cascaded reaches the handler of orders. -/
theorem reorderBus_not_guarded :
    ¬ (EntryPath.publish (orderPlaced 0)).Guarded reorderBus fun _ => [emptyOrder] := by
  intro guarded
  -- the handler of events returns the order, and nothing stands between it and its own handler
  have cascaded := guarded.2 () (.ok [emptyOrder])
  have valid : Valid emptyOrder.command := cascaded.1 fun event listed => by
    rw [List.mem_singleton.mp listed]
    rfl
  cases valid

end EntryPath

end Pharos

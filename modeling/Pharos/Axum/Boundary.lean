import Pharos.App.Concealment

/-!
# The HTTP boundary

The routes of `pharos-axum/src/lib.rs`: `run_command`, which answers any failure of a handler with
the same words; a route that dispatches through `CommandHandlerState` and maps the error with
`HandlerError::from_classified`; and `run_query`.  A failure is logged and not returned, so what an
adapter says of it does not reach the client (`responses_conceal`).
-/

namespace Pharos

open Async

/-- `status_for`. -/
def statusFor : ErrorKind → ℕ
  | .notFound => 404
  | .validation => 422
  | .conflict => 409
  | .unauthorized => 401
  | .forbidden => 403
  | .rateLimited => 429
  | .unavailable => 503
  | .internal => 500

/-- Error returned when an HTTP request cannot be handled successfully. -/
structure HandlerError where
  status : ℕ
  message : String
  deriving DecidableEq

namespace HandlerError

/-- `HandlerError::internal`; the error is logged only. -/
def internal {E : Type} (_ : E) : HandlerError := ⟨500, "internal server error"⟩

/-- `HandlerError::internal_command`; the name is logged only. -/
def internalCommand (_ : String) : HandlerError :=
  ⟨404, "command is internal-only and cannot be invoked over HTTP"⟩

/-- `HandlerError::from_classified`. -/
def fromClassified {E : Type} [ClassifiedError E] (error : E) : HandlerError :=
  ⟨statusFor (ClassifiedError.kind error), ClassifiedError.publicMessage error⟩

/-- `HandlerError::validation`. -/
def validation (error : ValidationError) : HandlerError := fromClassified error

end HandlerError

/-- A command type and its handler, over the adapters of `S`. -/
structure CommandRoute (S : Signature) (C R Err : Type) where
  name : String
  internalOnly : Bool
  validateInput : C → Except ValidationError Unit
  handle : C → Program S (Except Err R)

namespace CommandRoute

variable {S : Signature} {C R Err : Type} (route : CommandRoute S C R Err)

/-- `pharos_app::dispatch`. -/
def dispatch (command : C) : Program S (Except (DispatchError Err) R) :=
  match route.validateInput command with
  | .error error => pure (.error (.validation error))
  | .ok () => do
      match ← route.handle command with
      | .error error => pure (.error (.handler error))
      | .ok output => pure (.ok output)

/-- `CommandHandlerState::dispatch`. -/
def stateDispatch (command : C) : Program S (Except (DispatchError Err) R) :=
  if route.internalOnly then
    pure (.error (.validation (.violation ""
      "command is internal-only and cannot be invoked over this seam")))
  else route.dispatch command

/-- `run_command`. -/
def runCommand (command : C) : Program S (Except HandlerError R) :=
  if route.internalOnly then pure (.error (HandlerError.internalCommand route.name))
  else do
    match ← route.dispatch command with
    | .ok output => pure (.ok output)
    | .error (.validation error) => pure (.error (HandlerError.validation error))
    | .error (.handler error) => pure (.error (HandlerError.internal error))

/-- A route over `CommandHandlerState::dispatch` that maps its error by its classification. -/
def runClassified [ClassifiedError Err] (command : C) : Program S (Except HandlerError R) := do
  match ← route.stateDispatch command with
  | .ok output => pure (.ok output)
  | .error error => pure (.error (HandlerError.fromClassified error))

end CommandRoute

/-- `run_query`. -/
def runQuery {S : Signature} {Q R Err : Type} (handle : Q → Program S (Except Err R)) (query : Q) :
    Program S (Except HandlerError R) := do
  match ← handle query with
  | .ok result => pure (.ok result)
  | .error error => pure (.error (HandlerError.internal error))

section Application

variable {app : Application} {kind : app.Kind} {T : Signature}

/-- The route of a handler that an application registers, with its code over adapters. -/
def routeOf (handler : app.Handler kind)
    (handle : (op : app.signature.Op) → Program T (app.signature.Reply op)) :
    CommandRoute T (app.Command kind) (app.Output handler) (app.Error handler) where
  name := app.name kind
  internalOnly := app.internalOnly kind
  validateInput := app.validateInput
  handle command := handle (.handleCommand handler command)

/-- A route dispatches as the application does. -/
theorem dispatch_routeOf (handler : app.Handler kind)
    (handle : (op : app.signature.Op) → Program T (app.signature.Reply op))
    (command : app.Command kind) :
    (CommandHandlerState.dispatch handler command).interpret handle =
      (routeOf handler handle).stateDispatch command := by
  unfold CommandHandlerState.dispatch CommandRoute.stateDispatch
  show Program.interpret handle (if app.internalOnly kind then _ else _) =
    if app.internalOnly kind then _ else _
  split
  · rfl
  · unfold Pharos.dispatch CommandRoute.dispatch
    show Program.interpret handle
        (match app.validateInput command with | .error _ => _ | .ok _ => _) =
      match app.validateInput command with | .error _ => _ | .ok _ => _
    cases app.validateInput command with
    | error error => rfl
    | ok _ =>
        refine congrArg (Program.bind (handle (.handleCommand handler command)))
          (funext fun reply => ?_)
        cases reply <;> rfl

end Application

/-! ## What the client learns -/

/-- Errors with the same status and the same words for the client. -/
def SamePublic {Err : Type} [ClassifiedError Err] (error error' : Err) : Prop :=
  ClassifiedError.kind error = ClassifiedError.kind error' ∧
    ClassifiedError.publicMessage error = ClassifiedError.publicMessage error'

theorem samePublic_of_sameStoreError {error error' : StoreError}
    (same : Adapters.SameStoreError error error') : SamePublic error error' := by
  cases same with
  | notFound | conflict _ _ | storage _ _ => exact ⟨rfl, rfl⟩

section Routes

open Adapters

variable {I Tx St E C R Err : Type}

/-- A command handler that loads an aggregate, has it changed and saves it; `lift` makes an error
of its own out of one of the store. -/
def throughStore (delivery : DeliveryMode) (enrichers : List (Message → Message))
    (events : DomainEvent E) (idOf : C → I) (lift : StoreError → Err)
    (change : C → Aggregate St E → Except Err (Aggregate St E × R)) (command : C) :
    AdapterM I Tx St E (Except Err R) := do
  match ← load (idOf command) with
  | .error error => pure (.error (lift error))
  | .ok aggregate =>
    match change command aggregate with
    | .error error => pure (.error error)
    | .ok (aggregate, output) => do
      match ← save delivery enrichers events aggregate with
      | (_, .error error) => pure (.error (lift error))
      | (_, .ok ()) => pure (.ok output)

/-- A query handler that reads an aggregate. -/
def readThrough (idOf : C → I) (lift : StoreError → Err) (view : Option (Aggregate St E) → R)
    (query : C) : AdapterM I Tx St E (Except Err R) := do
  match ← find (idOf query) with
  | .error error => pure (.error (lift error))
  | .ok found => pure (.ok (view found))

variable [ClassifiedError Err]

/-- The errors of a handler of which no more than the public part is known. -/
abbrev SameResult (R Err : Type) [ClassifiedError Err] : Except Err R → Except Err R → Prop :=
  SameUpTo SamePublic

theorem discreet_throughStore {lift : StoreError → Err}
    (lifts : ∀ error error', SamePublic error error' → SamePublic (lift error) (lift error'))
    (delivery : DeliveryMode) (enrichers : List (Message → Message)) (events : DomainEvent E)
    (idOf : C → I) (change : C → Aggregate St E → Except Err (Aggregate St E × R)) (command : C) :
    (throughStore delivery enrichers events idOf lift change command :
      AdapterM I Tx St E (Except Err R)).Discreet Conceals (SameResult R Err) := by
  refine (discreet_load (idOf command)).bind fun loaded loaded' same => ?_
  cases same with
  | error error error' same =>
      exact .error _ _ (lifts error error' (samePublic_of_sameStoreError same))
  | ok aggregate =>
      dsimp only
      cases change command aggregate with
      | error error => exact .error error error ⟨rfl, rfl⟩
      | ok changed =>
          refine (discreet_save delivery enrichers events changed.1).bind fun out out' same => ?_
          obtain ⟨after, result⟩ := out
          obtain ⟨after', result'⟩ := out'
          obtain ⟨-, results⟩ := same
          cases results with
          | ok _ => exact .ok changed.2
          | error error error' same =>
              exact .error _ _ (lifts error error' (samePublic_of_sameStoreError same))

theorem discreet_readThrough {lift : StoreError → Err}
    (lifts : ∀ error error', SamePublic error error' → SamePublic (lift error) (lift error'))
    (idOf : C → I) (view : Option (Aggregate St E) → R) (query : C) :
    (readThrough idOf lift view query : AdapterM I Tx St E (Except Err R)).Discreet Conceals
      (SameResult R Err) := by
  refine (discreet_find (idOf query)).bind fun found found' same => ?_
  cases same with
  | ok found => exact .ok (view found)
  | error error error' same =>
      exact .error _ _ (lifts error error' (samePublic_of_sameStoreError same))

section Discreet

variable {S : Signature} {conceals : Likeness S} {route : CommandRoute S C R Err}

omit [ClassifiedError Err] in
theorem discreet_dispatch {r : Err → Err → Prop} (command : C)
    (handled : (route.handle command).Discreet conceals (SameUpTo r)) :
    (route.dispatch command).Discreet conceals
      (SameUpTo fun error error' => error = error' ∨ ∃ fault fault', error = .handler fault ∧
        error' = .handler fault' ∧ r fault fault') := by
  unfold CommandRoute.dispatch
  cases route.validateInput command with
  | error error => exact .error _ _ (.inl rfl)
  | ok _ =>
      refine handled.bind fun result result' same => ?_
      cases same with
      | ok output => exact .ok output
      | error error error' same => exact .error _ _ (.inr ⟨error, error', rfl, rfl, same⟩)

omit [ClassifiedError Err] in
theorem discreet_runCommand {r : Err → Err → Prop} (command : C)
    (handled : (route.handle command).Discreet conceals (SameUpTo r)) :
    (route.runCommand command).Discreet conceals Eq := by
  unfold CommandRoute.runCommand
  split
  · rfl
  · refine (discreet_dispatch command handled).bind fun result result' same => ?_
    cases same with
    | ok output => rfl
    | error error error' same =>
        rcases same with rfl | ⟨fault, fault', rfl, rfl, -⟩
        · cases error <;> rfl
        · rfl

theorem discreet_runClassified (command : C)
    (handled : (route.handle command).Discreet conceals (SameResult R Err)) :
    (route.runClassified command).Discreet conceals Eq := by
  unfold CommandRoute.runClassified CommandRoute.stateDispatch
  split
  · rfl
  · refine (discreet_dispatch command handled).bind fun result result' same => ?_
    cases same with
    | ok output => rfl
    | error error error' same =>
        rcases same with rfl | ⟨fault, fault', rfl, rfl, kind, message⟩
        · rfl
        · show Except.error (HandlerError.mk (statusFor (ClassifiedError.kind fault))
            (ClassifiedError.publicMessage fault)) = Except.error (HandlerError.mk
            (statusFor (ClassifiedError.kind fault')) (ClassifiedError.publicMessage fault'))
          rw [kind, message]

omit [ClassifiedError Err] in
theorem discreet_runQuery {Q : Type} {r : Err → Err → Prop}
    {handle : Q → Program S (Except Err R)} (query : Q)
    (handled : (handle query).Discreet conceals (SameUpTo r)) :
    (runQuery handle query).Discreet conceals Eq := by
  refine handled.bind fun result result' same => ?_
  cases same with
  | ok result => rfl
  | error _ _ _ => rfl

end Discreet

/-- Two runs of a program in which the client and the adapters see the same. -/
def SameSeen {S : Signature} {σ σ' A : Type} (program : Program S A) (env : Environment S σ) (s : σ)
    (env' : Environment S σ') (s' : σ') : Prop :=
  (program.record env s).value = (program.record env' s').value ∧
    (program.record env s).ops = (program.record env' s').ops

theorem sameSeen_of_discreet {S : Signature} {σ σ' A : Type} {conceals : Likeness S}
    {T : σ → σ' → Prop} {env : Environment S σ} {env' : Environment S σ'} {s : σ} {s' : σ'}
    (envs : AlikeEnv conceals T env env') (related : T s s') {program : Program S A}
    (discreet : program.Discreet conceals Eq) : SameSeen program env s env' s' := by
  obtain ⟨ops, values⟩ := discreet.record envs related
  exact ⟨values, ops⟩

/-- **What an adapter says of its failure does not reach the client.**  A command handler loads an
aggregate through a store, in either delivery mode, has it changed and saves it, and a query handler
reads one; their errors have the public part of the store's.  Against adapters that differ in the
texts of their failures alone, every route performs the same operations and gives the same response.
A command that is internal or fails its validation touches no adapter. -/
theorem responses_conceal {σ σ' : Type} {T : σ → σ' → Prop}
    {env : Environment (adapterSignature I Tx St E) σ}
    {env' : Environment (adapterSignature I Tx St E) σ'} {s : σ} {s' : σ'}
    (envs : AlikeEnv Conceals T env env') (related : T s s') {lift : StoreError → Err}
    (lifts : ∀ error error', SamePublic error error' → SamePublic (lift error) (lift error'))
    {route : CommandRoute (adapterSignature I Tx St E) C R Err} {delivery : DeliveryMode}
    {enrichers : List (Message → Message)} {events : DomainEvent E} {idOf : C → I}
    {change : C → Aggregate St E → Except Err (Aggregate St E × R)}
    (handles : route.handle = throughStore delivery enrichers events idOf lift change)
    (view : Option (Aggregate St E) → R) (command : C) :
    SameSeen (route.runCommand command) env s env' s' ∧
    SameSeen (route.runClassified command) env s env' s' ∧
    SameSeen (runQuery (readThrough idOf lift view) command) env s env' s' ∧
    (route.internalOnly = true ∨ route.validateInput command ≠ .ok () →
      ((route.runCommand command).record env s).ops = [] ∧
        ((route.runClassified command).record env s).ops = []) := by
  have handled : (route.handle command).Discreet Conceals (SameResult R Err) := by
    rw [handles]
    exact discreet_throughStore lifts delivery enrichers events idOf change command
  refine ⟨sameSeen_of_discreet envs related (discreet_runCommand command handled),
    sameSeen_of_discreet envs related (discreet_runClassified command handled),
    sameSeen_of_discreet envs related
      (discreet_runQuery command (discreet_readThrough lifts idOf view command)), ?_⟩
  unfold CommandRoute.runCommand CommandRoute.runClassified CommandRoute.stateDispatch
  intro refused
  by_cases internal : route.internalOnly = true
  · rw [if_pos internal, if_pos internal]
    exact ⟨rfl, rfl⟩
  · rw [if_neg internal, if_neg internal, CommandRoute.dispatch]
    cases valid : route.validateInput command with
    | error error => exact ⟨rfl, rfl⟩
    | ok _ => exact (refused.elim internal fun invalid => invalid valid).elim

end Routes

/-- A store whose saves fail with this text. -/
def failingWith (text : String) : Environment (adapterSignature ℕ Unit ℕ ℕ) Unit
  | (), .findById _ => ((), .ok (some { state := 5, version := 1 }))
  | (), .save aggregate => ((), aggregate, .error (.storage text))
  | (), .begin => ((), .ok ())
  | (), .saveInTx tx aggregate => ((), (tx, aggregate), .error (.storage text))
  | (), .insertOutboxInTx tx _ => ((), tx, .ok ())
  | (), .commit _ => ((), .ok ())
  | (), .dropTx _ => ((), ())
  | (), .publish _ => ((), .ok ())
  | (), .toVec _ => ((), .ok [])
  | (), .nowV7 => ((), (0 : ℕ))
  | (), .newMessage message => ((), OutboxMessage.new 0 0 message)
  | (), .notify _ => ((), ())

theorem alikeEnv_failingWith (text text' : String) :
    AlikeEnv Adapters.Conceals (fun _ _ => True) (failingWith text) (failingWith text') where
  replies _ _ _ op := by
    cases op with
    | findById _ | begin | commit _ | publish _ | toVec _ => exact .ok _
    | save _ | saveInTx _ _ => exact ⟨rfl, .error _ _ (.storage text text')⟩
    | insertOutboxInTx _ _ => exact ⟨rfl, .ok ()⟩
    | dropTx _ | notify _ => trivial
    | nowV7 | newMessage _ => rfl
  states _ _ _ _ := trivial

/-- A command that adds to a counter. -/
def addRoute : CommandRoute (adapterSignature ℕ Unit ℕ ℕ) ℕ ℕ StoreError where
  name := "Add"
  internalOnly := false
  validateInput _ := .ok ()
  handle := throughStore .inline [] ⟨fun _ => "Added", fun _ => "5"⟩ id id fun more aggregate =>
    .ok ({ aggregate with state := aggregate.state + more, pending := [more] }, more)

theorem responses_conceal_addRoute :
    ((addRoute.runClassified 3).record (failingWith "relation orders does not exist") ()).value =
      ((addRoute.runClassified 3).record (failingWith "connection refused") ()).value ∧
    ((addRoute.runClassified 3).record (failingWith "connection refused") ()).value =
      .error ⟨500, "internal storage error"⟩ := by
  have envs := alikeEnv_failingWith "relation orders does not exist" "connection refused"
  have lifts : ∀ error error' : StoreError, SamePublic error error' →
      SamePublic (id error) (id error') := fun _ _ same => same
  have handles : addRoute.handle = throughStore .inline [] ⟨fun _ => "Added", fun _ => "5"⟩ id id
      fun more aggregate => .ok ({ aggregate with
        state := aggregate.state + more, pending := [more] }, more) := rfl
  obtain ⟨-, ⟨same, -⟩, -, -⟩ :=
    responses_conceal envs trivial lifts handles (fun _ => (0 : ℕ)) 3
  exact ⟨same, rfl⟩

end Pharos

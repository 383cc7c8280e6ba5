import Mathlib.Data.Nat.Notation
import Pharos.Async.Program

/-!
# Commands and how they reach their handlers

`pharos-app/src/command.rs`, `cascade.rs` and `tower_service.rs`, with `CommandHandlerState` of
`pharos-axum/src/lib.rs`.  An application brings its own command types, their validators and their
handlers, and its own event types and event handlers; `Application` is what the framework knows of
them.  Running a handler is an operation of the application, so a program of the framework awaits
it and goes on with whatever the handler answers.
-/

namespace Pharos

open Async

/-- One field-level input violation. -/
structure FieldViolation where
  path : String
  message : String
  deriving DecidableEq

/-- Input-validation failure raised before a command handler runs. -/
structure ValidationError where
  violations : List FieldViolation
  deriving DecidableEq

/-- `ValidationError::violation`. -/
def ValidationError.violation (path message : String) : ValidationError where
  violations := [⟨path, message⟩]

/-- The types an application brings to the framework: those that implement `Command`, with
`CommandHandler`s for each, and those that implement `DomainEvent`, told apart by their `TypeId`. -/
structure Application where
  /-- the types that implement `Command` -/
  Kind : Type
  Command : Kind → Type
  /-- `Command::NAME` -/
  name : Kind → String
  /-- `Command::INTERNAL_ONLY` -/
  internalOnly : Kind → Bool
  /-- `Command::validate_input` -/
  validateInput : {kind : Kind} → Command kind → Except ValidationError Unit
  /-- the handlers of the commands of one type -/
  Handler : Kind → Type
  /-- `CommandHandler::Output` -/
  Output : {kind : Kind} → Handler kind → Type
  /-- `CommandHandler::Error` -/
  Error : {kind : Kind} → Handler kind → Type
  /-- the text of a handler's error -/
  toText : {kind : Kind} → {handler : Handler kind} → Error handler → String
  /-- a handler can succeed -/
  succeeds : ∀ {kind : Kind} (handler : Handler kind), Nonempty (Output handler)
  /-- the types that implement `DomainEvent` -/
  TypeId : Type
  decEqTypeId : DecidableEq TypeId
  Event : TypeId → Type
  /-- `DomainEvent::event_type` -/
  eventType : {type : TypeId} → Event type → String
  /-- `serde_json::from_slice` at an event type, with the text of its error -/
  fromSlice : (type : TypeId) → List UInt8 → Except String (Event type)

namespace Application

variable (app : Application)

instance : DecidableEq app.TypeId := app.decEqTypeId

/-- A command bound to the handler that will run it. -/
structure Cascaded where
  kind : app.Kind
  handler : app.Handler kind
  command : app.Command kind

/-- The two wrappers that erase a handler of events. -/
inductive Wrapper where
  | plain
  | cascading
  deriving DecidableEq

/-- A handler as the registry of the bus keeps it: the event type of its wrapper, `type_name` of
the handler's type, and a number of its own that tells it from any other registered handler. -/
structure ErasedHandler where
  event : app.TypeId
  name : String
  wrapper : Wrapper
  number : ℕ
  deriving DecidableEq

/-- The code of the application that the framework runs. -/
inductive Op where
  | handleEvent (handler : app.ErasedHandler) (event : app.Event handler.event)
  | handleCascading (handler : app.ErasedHandler) (event : app.Event handler.event)
  | handleCommand {kind : app.Kind} (handler : app.Handler kind) (command : app.Command kind)

/-- What each of them returns. -/
def signature : Signature where
  Op := app.Op
  Reply
    | .handleEvent _ _ => Except String Unit
    | .handleCascading _ _ => Except String (List app.Cascaded)
    | .handleCommand handler _ => Except (app.Error handler) (app.Output handler)

variable {app}

/-- The command passes its own validation. -/
def Valid {kind : app.Kind} (command : app.Command kind) : Prop := app.validateInput command = .ok ()

/-- `EventHandler::handle`. -/
def handleEvent (handler : app.ErasedHandler) (event : app.Event handler.event) :
    Program app.signature (Except String Unit) :=
  Program.call (S := app.signature) (.handleEvent handler event)

/-- `CascadingEventHandler::handle`. -/
def handleCascading (handler : app.ErasedHandler) (event : app.Event handler.event) :
    Program app.signature (Except String (List app.Cascaded)) :=
  Program.call (S := app.signature) (.handleCascading handler event)

/-- `CommandHandler::handle`. -/
def handleCommand {kind : app.Kind} (handler : app.Handler kind) (command : app.Command kind) :
    Program app.signature (Except (app.Error handler) (app.Output handler)) :=
  Program.call (S := app.signature) (.handleCommand handler command)

end Application

open Application

variable {app : Application}

/-- Either the input failed validation before the handler ran, or the handler itself failed. -/
inductive DispatchError (E : Type) where
  | validation (error : ValidationError)
  | handler (error : E)

/-- A cascaded command failed. -/
structure CascadeError where
  commandName : String
  source : String

/-- The `Display` text. -/
def CascadeError.toText (error : CascadeError) : String :=
  "cascaded command '" ++ error.commandName ++ "' failed: " ++ error.source

section Entries

variable {kind : app.Kind}

/-- `dispatch`: validate, then run the handler. -/
def dispatch (handler : app.Handler kind) (command : app.Command kind) :
    Program app.signature (Except (DispatchError (app.Error handler)) (app.Output handler)) :=
  match app.validateInput command with
  | .error error => pure (.error (.validation error))
  | .ok () => do
      match ← handleCommand handler command with
      | .error error => pure (.error (.handler error))
      | .ok output => pure (.ok output)

/-- `CommandHandlerService::call`. -/
def CommandHandlerService.call (handler : app.Handler kind) (command : app.Command kind) :
    Program app.signature (Except (DispatchError (app.Error handler)) (app.Output handler)) :=
  dispatch handler command

/-- `CommandHandlerState::dispatch`. -/
def CommandHandlerState.dispatch (handler : app.Handler kind) (command : app.Command kind) :
    Program app.signature (Except (DispatchError (app.Error handler)) (app.Output handler)) :=
  if app.internalOnly kind then
    pure (.error (.validation (.violation ""
      "command is internal-only and cannot be invoked over this seam")))
  else Pharos.dispatch handler command

end Entries

/-- `Cascaded::dispatch`: the handler runs as it stands. -/
def Application.Cascaded.dispatch (cascaded : app.Cascaded) :
    Program app.signature (Except CascadeError Unit) := do
  match ← handleCommand cascaded.handler cascaded.command with
  | .error error => pure (.error ⟨app.name cascaded.kind, app.toText error⟩)
  | .ok _ => pure (.ok ())

end Pharos

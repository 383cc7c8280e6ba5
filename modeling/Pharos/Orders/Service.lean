import Pharos.App.Classified
import Pharos.Memory.Repository
import Pharos.Orders.Domain

/-!
# The order service

`examples/order/src/application` and `examples/order/src/web`: the command handlers of the order
over the in-memory repository and the event bus, the query, and the HTTP routes in front of them,
with the mapping of errors to statuses.
-/

namespace Pharos

namespace Orders

open Async InMemoryRepository

/-- `POST /orders/items`; `Price` is the type of an amount in reais. -/
structure AddItem (Price : Type) where
  orderId : Uuid
  description : String
  quantity : ℕ
  unitPriceReais : Price

/-- What reaches the service. -/
inductive Request (Price : Type) where
  | createOrder (customerId : Uuid)
  | addItem (command : AddItem Price)
  | confirmOrder (orderId : Uuid)
  | orderTotal (orderId : Uuid)

/-- What the service rests on: the floating-point part of `Money::brl`, the validator derived for
`AddItem`, and the text of an id. -/
structure Front (Price : Type) where
  cents : Price → Option ℕ
  validateInput : AddItem Price → Except ValidationError Unit
  uuidText : Uuid → String

/-- Application-layer error that combines domain and infrastructure failures. -/
inductive AppError where
  | domain (error : DomainError)
  | validation (error : ValidationError)
  | infra (source : String)

/-- The `Display` text. -/
def AppError.toText : AppError → String
  | .domain error => error.toText
  | .validation error => "validation: " ++ error.toText
  | .infra source => "infrastructure: " ++ source

abbrev OrderM := RepositoryM Uuid Order OrderEvent

section Handlers

variable {Price : Type} (front : Front Price)

/-- Loads an order or returns `NotFound`. -/
def load (id : Uuid) : OrderM (Except AppError OrderAggregate) := do
  match ← findById id with
  | .error error => pure (.error (.infra error))
  | .ok none => pure (.error (.domain (.notFound ("order " ++ front.uuidText id))))
  | .ok (some order) => pure (.ok order)

/-- `save_and_publish(..).map_err(AppError::infra)`. -/
def persist (order : OrderAggregate) : OrderM (Except AppError Unit) := do
  let (_, result) ← saveAndPublish save publish order
  pure (result.mapError fun error => .infra error.toText)

/-- `CommandHandler<CreateOrder>::handle`. -/
def createOrder (customerId : Uuid) : OrderM (Except AppError Uuid) := do
  let id ← await .nowV7
  let now ← await .utcNow
  match ← persist (Order.create id now customerId) with
  | .error error => pure (.error error)
  | .ok () => pure (.ok id)

/-- `CommandHandler<AddItem>::handle`. -/
def addItem (command : AddItem Price) : OrderM (Except AppError Unit) := do
  match ← load front command.orderId with
  | .error error => pure (.error error)
  | .ok order =>
    match Quantity.new command.quantity, Money.brl (front.cents command.unitPriceReais) with
    | .error error, _ => pure (.error (.domain error))
    | .ok _, .error error => pure (.error (.domain error))
    | .ok quantity, .ok unitPrice => do
      let itemId ← await .nowV7
      let now ← await .utcNow
      match Order.addItem itemId now order command.description quantity unitPrice with
      | .error error => pure (.error (.domain error))
      | .ok order => persist order

/-- `CommandHandler<ConfirmOrder>::handle`. -/
def confirmOrder (orderId : Uuid) : OrderM (Except AppError Unit) := do
  match ← load front orderId with
  | .error error => pure (.error error)
  | .ok order => do
    let now ← await .utcNow
    match Order.confirm now order with
    | .error error => pure (.error (.domain error))
    | .ok order => persist order

/-- `QueryHandler<GetOrderTotal>::handle`. -/
def getOrderTotal (orderId : Uuid) : OrderM (Except AppError (Option ℕ)) := do
  match ← findById orderId with
  | .error error => pure (.error (.infra error))
  | .ok none => pure (.ok none)
  | .ok (some order) =>
    match order.state.total with
    | .error error => pure (.error (.domain error))
    | .ok total => pure (.ok (some total.cents))

end Handlers

/-! ## The routes -/

/-- The body of a response. -/
inductive Body where
  | empty
  | text (text : String)
  | id (id : Uuid)
  | total (cents : Option ℕ)
  deriving DecidableEq

structure Response where
  status : ℕ
  body : Body
  deriving DecidableEq

/-- The status of an error. -/
def ApiError.status : AppError → ℕ
  | .domain (.notFound _) => 404
  | .domain (.validation _) => 400
  | .domain (.businessRule _) | .domain (.conflict _) => 409
  | .validation _ => 422
  | .infra _ => 500

/-- `ApiError::into_response`. -/
def ApiError.intoResponse (error : AppError) : Response :=
  ⟨ApiError.status error, .text error.toText⟩

/-- `ApiError::from` a dispatch error. -/
def ApiError.ofDispatchError : DispatchError AppError → AppError
  | .validation error => .validation error
  | .handler error => error

/-- `CommandHandlerState::dispatch` of a command that is not internal. -/
def dispatch {R : Type} (validated : Except ValidationError Unit)
    (handle : OrderM (Except AppError R)) : OrderM (Except (DispatchError AppError) R) := do
  match validated with
  | .error error => pure (.error (.validation error))
  | .ok () =>
    match ← handle with
    | .error error => pure (.error (.handler error))
    | .ok output => pure (.ok output)

/-- The response of a route that dispatches a command. -/
def respond {R : Type} (done : R → Response) : Except (DispatchError AppError) R → Response
  | .error error => ApiError.intoResponse (ApiError.ofDispatchError error)
  | .ok output => done output

/-- The routes. -/
def route {Price : Type} (front : Front Price) : Request Price → OrderM Response
  | .createOrder customerId => do
      let result ← dispatch (.ok ()) (createOrder customerId)
      pure (respond (fun id => ⟨200, .id id⟩) result)
  | .addItem command => do
      let result ← dispatch (front.validateInput command) (addItem front command)
      pure (respond (fun _ => ⟨204, .empty⟩) result)
  | .confirmOrder orderId => do
      let result ← dispatch (.ok ()) (confirmOrder front orderId)
      pure (respond (fun _ => ⟨204, .empty⟩) result)
  | .orderTotal orderId => do
      match ← getOrderTotal orderId with
      | .error error => pure (ApiError.intoResponse error)
      | .ok total => pure ⟨200, .total total⟩

/-- The route handlers, called any number of times at once on one repository.  The layers that the
router puts around them answer in their place when a request takes too long, and are left out. -/
def service {Price : Type} (front : Front Price) :
    System (repositorySignature Uuid Order OrderEvent) (DashMap Uuid OrderAggregate)
      RepositoryChoice (Request Price) (Request Price) Response :=
  InMemoryRepository.system Order.id (route front)

abbrev ServicePool (Price : Type) :=
  RepositoryPool Uuid Order OrderEvent (Request Price) Response

end Orders

end Pharos

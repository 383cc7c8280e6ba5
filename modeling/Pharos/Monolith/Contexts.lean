import Pharos.App.AggregateStore
import Pharos.App.EventBus
import Pharos.Memory.Repository

/-!
# Two bounded contexts in one process

`examples/modular-monolith/src`: the `orders` context, the `billing` context, and the composition
root that subscribes the one to the events of the other on the in-process bus.  Placing an order
saves it and publishes `OrderPlaced`; the subscriber issues the invoice, in the same call, into a
repository of its own.
-/

namespace Pharos

namespace Monolith

open Async

/-! ## The `orders` context -/

/-- An order placed by a customer; its version and its events stand beside it. -/
structure Order where
  id : String
  customer : String
  totalCents : ℤ
  deriving DecidableEq

/-- Raised when an order is placed. -/
structure OrderPlaced where
  orderId : String
  customer : String
  totalCents : ℤ
  occurredAt : Time
  deriving DecidableEq

abbrev OrderAggregate := Aggregate Order OrderPlaced

/-- `Order::place`, with the instant it read. -/
def Order.place (now : Time) (id customer : String) (totalCents : ℤ) : OrderAggregate where
  state := ⟨id, customer, totalCents⟩
  version := 0
  pending := [⟨id, customer, totalCents, now⟩]

/-! ## The `billing` context -/

/-- An invoice issued for an order. -/
structure Invoice where
  id : String
  orderId : String
  amountCents : ℤ
  deriving DecidableEq

/-- Raised when an invoice is issued. -/
structure InvoiceIssued where
  invoiceId : String
  orderId : String
  amountCents : ℤ
  occurredAt : Time
  deriving DecidableEq

abbrev InvoiceAggregate := Aggregate Invoice InvoiceIssued

/-- `Invoice::issue`, with the instant it read. -/
def Invoice.issue (now : Time) (id orderId : String) (amountCents : ℤ) : InvoiceAggregate where
  state := ⟨id, orderId, amountCents⟩
  version := 0
  pending := [⟨id, orderId, amountCents, now⟩]

/-- Errors produced by the billing context. -/
inductive BillingError where
  | persist (source : String)

/-- The `Display` text. -/
def BillingError.toText : BillingError → String
  | .persist source => "failed to persist invoice: " ++ source

/-- `format!("inv-{order_id}")`. -/
def invoiceId (orderId : String) : String := "inv-" ++ orderId

/-! ## Both repositories -/

/-- What a call awaits: the repository of one context or of the other, and the clock. -/
inductive MonolithOp where
  | orders (op : RepositoryOp String Order OrderPlaced)
  | invoices (op : RepositoryOp String Invoice InvoiceIssued)

abbrev monolithSignature : Signature where
  Op := MonolithOp
  Reply
    | .orders op => op.Reply
    | .invoices op => op.Reply

abbrev MonolithM := Program monolithSignature

abbrev MonolithEvent := Event monolithSignature RepositoryChoice

/-- A program over the repository of the orders. -/
def onOrders {α : Type} (program : RepositoryM String Order OrderPlaced α) : MonolithM α :=
  program.interpret fun op => Program.call (S := monolithSignature) (.orders op)

/-- A program over the repository of the invoices. -/
def onInvoices {α : Type} (program : RepositoryM String Invoice InvoiceIssued α) : MonolithM α :=
  program.interpret fun op => Program.call (S := monolithSignature) (.invoices op)

/-- `issue_invoice`. -/
def issueInvoice (orderId : String) (amountCents : ℤ) :
    MonolithM (Except BillingError InvoiceAggregate) := do
  let now ← onInvoices (InMemoryRepository.await .utcNow)
  match ← onInvoices (InMemoryRepository.save
    (Invoice.issue now (invoiceId orderId) orderId amountCents)) with
  | (_, .error error) => pure (.error (.persist error.toText))
  | (invoice, .ok ()) => pure (.ok invoice)

/-! ## The composition root -/

/-- The event types that go over the bus. -/
inductive EventType where
  | orderPlaced
  deriving DecidableEq

/-- What the framework knows of the example: it has no commands, and its event cannot be decoded
from bytes. -/
def application : Application where
  Kind := Empty
  Command := Empty.elim
  name := Empty.elim
  internalOnly := Empty.elim
  validateInput := fun {kind} => kind.elim
  Handler := Empty.elim
  Output := fun {kind} => kind.elim
  Error := fun {kind} => kind.elim
  toText := fun {kind} => kind.elim
  succeeds := fun {kind} => kind.elim
  TypeId := EventType
  decEqTypeId := inferInstance
  Event _ := OrderPlaced
  eventType _ := "OrderPlaced"
  fromSlice _ _ := .error "OrderPlaced is not deserializable"

/-- `Monolith::new`: the bus, with billing subscribed to order events. -/
def bus : EventBus application :=
  (EventBus.withErrorPolicy application .failFast).register .orderPlaced
    "modular_monolith::IssueInvoiceOnOrderPlaced"

/-- `IssueInvoiceOnOrderPlaced::handle`. -/
def issueInvoiceOnOrderPlaced (event : OrderPlaced) : MonolithM (Except String Unit) := do
  match ← issueInvoice event.orderId event.totalCents with
  | .error error => pure (.error error.toText)
  | .ok _ => pure (.ok ())

/-- The code of the example that the bus runs; nothing in it cascades. -/
def handlers : (op : application.Op) → MonolithM (application.signature.Reply op)
  | .handleEvent _ event => issueInvoiceOnOrderPlaced event
  | .handleCascading _ _ => pure (.ok [])
  | @Application.Op.handleCommand _ kind _ _ => kind.elim

/-- `EventBus::publish`, down to what the handlers do. -/
def publish (event : OrderPlaced) : MonolithM (Except EventBusError Unit) :=
  (EventBus.publish bus (show application.Event .orderPlaced from event)).interpret handlers

/-- `Monolith::place_order`. -/
def placeOrder (id customer : String) (totalCents : ℤ) :
    MonolithM (Except ApplicationError Unit) := do
  let now ← onOrders (InMemoryRepository.await .utcNow)
  let (_, result) ← saveAndPublish (fun order => onOrders (InMemoryRepository.save order)) publish
    (Order.place now id customer totalCents)
  pure result

/-- `Monolith::invoice_for`. -/
def invoiceFor (orderId : String) : MonolithM (Option InvoiceAggregate) := do
  match ← onInvoices (InMemoryRepository.findById (invoiceId orderId)) with
  | .error _ => pure none
  | .ok found => pure found

/-- What the application is asked for. -/
inductive Request where
  | placeOrder (id customer : String) (totalCents : ℤ)
  | invoiceFor (orderId : String)
  deriving DecidableEq

inductive Response where
  | placed (result : Except ApplicationError Unit)
  | found (invoice : Option InvoiceAggregate)

/-- The program of one call. -/
def body : Request → MonolithM Response
  | .placeOrder id customer totalCents => do
      let result ← placeOrder id customer totalCents
      pure (.placed result)
  | .invoiceFor orderId => do
      let invoice ← invoiceFor orderId
      pure (.found invoice)

/-- The repositories of the two contexts. -/
structure Repositories where
  orders : DashMap String OrderAggregate := ∅
  invoices : DashMap String InvoiceAggregate := ∅

/-- The effect of one operation, on the repository it is about. -/
def serve (shared : Repositories) (choice : RepositoryChoice) :
    (op : MonolithOp) → Option (Repositories × monolithSignature.Reply op)
  | .orders op =>
      (InMemoryRepository.serve Order.id shared.orders choice op).map fun out =>
        ({ shared with orders := out.1 }, out.2)
  | .invoices op =>
      (InMemoryRepository.serve Invoice.id shared.invoices choice op).map fun out =>
        ({ shared with invoices := out.1 }, out.2)

/-- Any number of calls at a time. -/
def system : System monolithSignature Repositories RepositoryChoice Request Request Response where
  serve := serve
  arrive shared request := some (shared, [request])
  body := body

abbrev MonolithPool := Pool monolithSignature Repositories RepositoryChoice Request Response

/-- The application as `Monolith::new` leaves it. -/
def initial : MonolithPool where
  shared := {}

end Monolith

end Pharos

import Pharos.Aggregate
import Pharos.Classify
import Pharos.Clock

/-!
# The order

`examples/order/src/domain`: money in cents, quantities, the aggregate with its three states, and
the events it raises.  Amounts are `u64` and wrap.

The events that an order raises tell its whole story: applied in order, they give the order again
(`Order.replay`).
-/

namespace Pharos

namespace Orders

/-- Monetary amount stored in cents; every constructor writes the one currency there is. -/
structure Money where
  cents : ℕ
  currency : String
  reais : currency = "BRL"
  deriving DecidableEq

namespace Money

/-- `Money::brl`, over the amount that `(reais * 100.0).round() as u64` comes to; an amount that is
negative or not finite has none. -/
def brl (cents : Option ℕ) : Except DomainError Money :=
  match cents with
  | none => .error (.validation "invalid monetary amount")
  | some cents => .ok ⟨cents, "BRL", rfl⟩

/-- `Money::from_cents`. -/
def fromCents (cents : ℕ) : Money := ⟨cents, "BRL", rfl⟩

/-- `Money::zero`. -/
def zero : Money := fromCents 0

/-- `Money::add`. -/
def add (self other : Money) : Except DomainError Money :=
  if self.currency ≠ other.currency then .error (.businessRule "different currencies")
  else .ok ⟨(self.cents + other.cents) % 2 ^ 64, self.currency, self.reais⟩

/-- `Money::mul`. -/
def mul (self : Money) (fator : ℕ) : Money :=
  ⟨self.cents * fator % 2 ^ 64, self.currency, self.reais⟩

end Money

/-- A quantity is never zero. -/
structure Quantity where
  value : ℕ
  positive : value ≠ 0
  deriving DecidableEq

/-- `Quantity::new`. -/
def Quantity.new (v : ℕ) : Except DomainError Quantity :=
  if h : v = 0 then .error (.validation "quantity must be > 0") else .ok ⟨v, h⟩

/-- A line of an order. -/
structure OrderItem where
  id : Uuid
  description : String
  quantity : Quantity
  unitPrice : Money
  deriving DecidableEq

/-- `OrderItem::subtotal`. -/
def OrderItem.subtotal (item : OrderItem) : Money := item.unitPrice.mul item.quantity.value

inductive OrderStatus where
  | draft
  | confirmed
  | cancelled
  deriving DecidableEq

/-- The state of an order; its version and its events stand beside it. -/
structure Order where
  id : Uuid
  customerId : Uuid
  items : List OrderItem
  status : OrderStatus
  deriving DecidableEq

/-- Events raised by an order. -/
inductive OrderEvent where
  | orderCreated (orderId customerId : Uuid) (occurredAt : Time)
  | itemAdded (orderId itemId : Uuid) (description : String) (quantity unitPriceCents : ℕ)
      (occurredAt : Time)
  | orderConfirmed (orderId : Uuid) (totalCents : ℕ) (occurredAt : Time)
  | orderCancelled (orderId : Uuid) (reason : String) (occurredAt : Time)
  deriving DecidableEq

abbrev OrderAggregate := Aggregate Order OrderEvent

/-- `AggregateEvents::raise`. -/
def raise (order : OrderAggregate) (event : OrderEvent) : OrderAggregate :=
  { order with pending := order.pending ++ [event] }

namespace Order

/-- `Order::create`, with the id it drew and the instant it read. -/
def create (id : Uuid) (now : Time) (customerId : Uuid) : OrderAggregate :=
  raise { state := ⟨id, customerId, [], .draft⟩ } (.orderCreated id customerId now)

/-- `Order::ensure_draft`. -/
def ensureDraft (order : OrderAggregate) : Except DomainError Unit :=
  if order.state.status ≠ .draft then
    .error (.businessRule "operation allowed only in Draft status")
  else .ok ()

/-- `Order::add_item`, with the id it drew and the instant it read. -/
def addItem (itemId : Uuid) (now : Time) (order : OrderAggregate) (description : String)
    (quantity : Quantity) (unitPrice : Money) : Except DomainError OrderAggregate := do
  ensureDraft order
  let order := raise order
    (.itemAdded order.state.id itemId description quantity.value unitPrice.cents now)
  pure { order with
    state := { order.state with
      items := order.state.items ++ [⟨itemId, description, quantity, unitPrice⟩] } }

/-- `Order::total`. -/
def total (order : Order) : Except DomainError Money :=
  order.items.foldlM (fun acc item => acc.add item.subtotal) Money.zero

/-- `Order::confirm`, with the instant it read. -/
def confirm (now : Time) (order : OrderAggregate) : Except DomainError OrderAggregate := do
  ensureDraft order
  if order.state.items.isEmpty then
    throw (.businessRule "an order without items cannot be confirmed")
  let total ← order.state.total
  pure (raise { order with state := { order.state with status := .confirmed } }
    (.orderConfirmed order.state.id total.cents now))

/-- `Order::cancel`, with the instant it read. -/
def cancel (now : Time) (order : OrderAggregate) (reason : String) :
    Except DomainError OrderAggregate :=
  if order.state.status = .cancelled then .error (.businessRule "order is already cancelled")
  else .ok (raise { order with state := { order.state with status := .cancelled } }
    (.orderCancelled order.state.id reason now))

end Order

/-! ## What an operation does -/

/-- The status a method needs, the status it leaves, and what it raises. -/
inductive Moves (order order' : OrderAggregate) : Prop where
  | added (itemId : Uuid) (now : Time) (description : String) (quantity : Quantity)
      (unitPrice : Money) (draft : order.state.status = .draft)
      (same : order' = ⟨{ order.state with
          items := order.state.items ++ [⟨itemId, description, quantity, unitPrice⟩] },
        order.version, order.pending ++ [.itemAdded order.state.id itemId description quantity.value
          unitPrice.cents now]⟩)
  | confirmed (total : Money) (now : Time) (draft : order.state.status = .draft)
      (some : order.state.items ≠ []) (sum : order.state.total = .ok total)
      (same : order' = ⟨{ order.state with status := .confirmed }, order.version,
        order.pending ++ [.orderConfirmed order.state.id total.cents now]⟩)
  | cancelled (reason : String) (now : Time) (live : order.state.status ≠ .cancelled)
      (same : order' = ⟨{ order.state with status := .cancelled }, order.version,
        order.pending ++ [.orderCancelled order.state.id reason now]⟩)

section Moves

variable {order order' : OrderAggregate} {now : Time}

theorem ensureDraft_ok (draft : Order.ensureDraft order = .ok ()) :
    order.state.status = .draft := by
  unfold Order.ensureDraft at draft
  split at draft
  · cases draft
  · next same => exact not_not.mp same

theorem moves_of_addItem {itemId : Uuid} {description : String} {quantity : Quantity}
    {unitPrice : Money}
    (done : Order.addItem itemId now order description quantity unitPrice = .ok order') :
    order.state.status = .draft ∧ Moves order order' := by
  unfold Order.addItem at done
  cases draft : Order.ensureDraft order with
  | error error =>
      rw [draft] at done
      cases done
  | ok _ =>
      rw [draft] at done
      cases done
      have draft := ensureDraft_ok draft
      exact ⟨draft, .added itemId now description quantity unitPrice draft rfl⟩

theorem moves_of_confirm (done : Order.confirm now order = .ok order') :
    order.state.status = .draft ∧ Moves order order' := by
  unfold Order.confirm at done
  cases draft : Order.ensureDraft order with
  | error error =>
      rw [draft] at done
      cases done
  | ok _ =>
      rw [draft] at done
      by_cases empty : order.state.items.isEmpty = true
      · rw [if_pos empty] at done
        cases done
      · rw [if_neg empty] at done
        cases sum : order.state.total with
        | error error =>
            rw [sum] at done
            cases done
        | ok total =>
            rw [sum] at done
            cases done
            have draft := ensureDraft_ok draft
            exact ⟨draft, .confirmed total now draft (by simpa using empty) sum rfl⟩

theorem moves_of_cancel {reason : String} (done : Order.cancel now order reason = .ok order') :
    Moves order order' := by
  unfold Order.cancel at done
  split at done
  · cases done
  · next live =>
    cases done
    exact .cancelled reason now live rfl

end Moves

/-! ## The events tell the story -/

/-- An order as its events leave it; there is none before `OrderCreated`. -/
def apply : Option Order → OrderEvent → Option Order
  | none, .orderCreated id customerId _ => some ⟨id, customerId, [], .draft⟩
  | some order, .itemAdded _ itemId description quantity unitPriceCents _ =>
      match Quantity.new quantity with
      | .ok quantity => some { order with
          items := order.items ++ [⟨itemId, description, quantity, .fromCents unitPriceCents⟩] }
      | .error _ => some order
  | some order, .orderConfirmed _ _ _ => some { order with status := .confirmed }
  | some order, .orderCancelled _ _ _ => some { order with status := .cancelled }
  | order, _ => order

/-- The order that a history of events tells of. -/
def replay (events : List OrderEvent) : Option Order := events.foldl apply none

theorem replay_concat (events : List OrderEvent) (event : OrderEvent) :
    replay (events ++ [event]) = apply (replay events) event := List.foldl_concat ..

/-- A confirmed order has items. -/
def WellFormed (order : Order) : Prop := order.status = .confirmed → order.items ≠ []

theorem Money.ext_cents {first second : Money} (same : first.cents = second.cents) :
    first = second := by
  obtain ⟨cents, currency, rfl⟩ := first
  obtain ⟨cents', currency', rfl⟩ := second
  cases same
  rfl

theorem Quantity.new_value (quantity : Quantity) : Quantity.new quantity.value = .ok quantity :=
  dif_neg quantity.positive

/-- There is no other currency to add. -/
theorem Money.add_eq (first second : Money) :
    first.add second = .ok (.fromCents ((first.cents + second.cents) % 2 ^ 64)) := by
  have same : first.currency = second.currency := first.reais.trans second.reais.symm
  rw [Money.add, if_neg (not_not.mpr same)]
  exact congrArg Except.ok (Money.ext_cents rfl)

/-- The total is the sum of the lines, wrapped. -/
theorem Order.total_eq (order : Order) : order.total = .ok (.fromCents
    ((order.items.map fun item => item.unitPrice.cents * item.quantity.value).sum % 2 ^ 64)) := by
  have sums : ∀ (items : List OrderItem) (start : ℕ),
      items.foldlM (fun (acc : Money) item => acc.add item.subtotal) (.fromCents (start % 2 ^ 64)) =
        .ok (.fromCents ((start + (items.map fun item =>
          item.unitPrice.cents * item.quantity.value).sum) % 2 ^ 64)) := by
    intro items
    induction items with
    | nil =>
        intro start
        rw [List.map_nil, List.sum_nil, Nat.add_zero]
        rfl
    | cons item items ih =>
        intro start
        have first : (Money.fromCents (start % 2 ^ 64)).add item.subtotal = .ok (.fromCents
            ((start + item.unitPrice.cents * item.quantity.value) % 2 ^ 64)) := by
          rw [Money.add_eq]
          simp [OrderItem.subtotal, Money.mul, Money.fromCents]
        rw [List.foldlM_cons, first, List.map_cons, List.sum_cons, ← Nat.add_assoc]
        exact ih _
  have all := sums order.items 0
  rw [Nat.zero_add] at all
  exact all

/-- An operation raises one event, which tells what it did. -/
theorem Moves.told {order order' : OrderAggregate} (moves : Moves order order') :
    WellFormed order'.state ∧ ∃ event, order'.pending = order.pending ++ [event] ∧
      apply (some order.state) event = some order'.state := by
  cases moves with
  | added itemId now description quantity unitPrice draft same =>
      subst same
      refine ⟨fun confirmed => ?_, _, rfl, ?_⟩
      · rw [draft] at confirmed
        cases confirmed
      · have price : Money.fromCents unitPrice.cents = unitPrice := Money.ext_cents rfl
        simp only [apply, Quantity.new_value, price]
  | confirmed total now draft some sum same =>
      subst same
      exact ⟨fun _ => some, _, rfl, rfl⟩
  | cancelled reason now live same =>
      subst same
      exact ⟨nofun, _, rfl, rfl⟩

/-- An operation keeps the id and the version. -/
theorem Moves.same {order order' : OrderAggregate} (moves : Moves order order') :
    order'.version = order.version ∧ order'.state.id = order.state.id := by
  cases moves with
  | added _ _ _ _ _ _ same | confirmed _ _ _ _ _ same | cancelled _ _ _ same =>
      subst same
      exact ⟨rfl, rfl⟩

/-- What the methods make of a new order, before any save. -/
inductive Built : OrderAggregate → Prop where
  | created (id : Uuid) (now : Time) (customerId : Uuid) : Built (Order.create id now customerId)
  | added {order order' : OrderAggregate} (itemId : Uuid) (now : Time) (description : String)
      (quantity : Quantity) (unitPrice : Money) (built : Built order)
      (done : Order.addItem itemId now order description quantity unitPrice = .ok order') :
      Built order'
  | confirmed {order order' : OrderAggregate} (now : Time) (built : Built order)
      (done : Order.confirm now order = .ok order') : Built order'
  | cancelled {order order' : OrderAggregate} (now : Time) (reason : String) (built : Built order)
      (done : Order.cancel now order reason = .ok order') : Built order'

/-- Whatever methods are called, the pending events tell the order. -/
theorem Built.told {order : OrderAggregate} (built : Built order) :
    WellFormed order.state ∧ replay order.pending = some order.state := by
  have goesOn : ∀ {order order' : OrderAggregate}, Moves order order' →
      WellFormed order.state ∧ replay order.pending = some order.state →
      WellFormed order'.state ∧ replay order'.pending = some order'.state := by
    intro order order' moves told
    obtain ⟨wellFormed, event, raised, applied⟩ := moves.told
    refine ⟨wellFormed, ?_⟩
    rw [raised, replay_concat, told.2, applied]
  induction built with
  | created id now customerId => exact ⟨nofun, rfl⟩
  | added _ _ _ _ _ _ done ih => exact goesOn (moves_of_addItem done).2 ih
  | confirmed _ _ done ih => exact goesOn (moves_of_confirm done).2 ih
  | cancelled _ _ _ done ih => exact goesOn (moves_of_cancel done) ih

end Orders

end Pharos

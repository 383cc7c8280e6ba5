import Pharos.Async.Control
import Pharos.Async.Progress
import Pharos.Monolith.Contexts

/-!
# Billing follows the orders

Any number of calls at a time.  A call that places an order saves it, and then, on the bus, the
invoice.  Both repositories only ever get new aggregates, so an order id goes to the one call that
saves it first, and the invoice of that order is saved by no other call: the subscriber in the other
context cannot fail, and once a call has returned what it placed is billed.
-/

namespace Pharos

namespace Monolith

open Async InMemoryRepository

/-- The order that was saved. -/
def placedBy : MonolithEvent → Option OrderAggregate
  | ⟨_, .orders (.save order), .ok ()⟩ => some order
  | _ => none

/-- The invoice that was saved. -/
def billedBy : MonolithEvent → Option InvoiceAggregate
  | ⟨_, .invoices (.save invoice), .ok ()⟩ => some invoice
  | _ => none

/-- The orders a call has saved. -/
def placed (past : List MonolithEvent) : List OrderAggregate := (past.filterMap placedBy).reverse

/-- The invoices a call has saved. -/
def billed (past : List MonolithEvent) : List InvoiceAggregate :=
  (past.filterMap billedBy).reverse

theorem placed_cons (event : MonolithEvent) (past : List MonolithEvent) :
    placed (event :: past) = placed past ++ (placedBy event).toList := reverse_filterMap_cons ..

theorem billed_cons (event : MonolithEvent) (past : List MonolithEvent) :
    billed (event :: past) = billed past ++ (billedBy event).toList := reverse_filterMap_cons ..

/-! ## What a call does -/

/-- What a call may do next. -/
inductive Allowed (past : List MonolithEvent) : Request → MonolithOp → Prop where
  | datesOrder (request : Request) : Allowed past request (.orders .utcNow)
  | datesInvoice (request : Request) : Allowed past request (.invoices .utcNow)
  | places (now : Time) (id customer : String) (totalCents : ℤ) (unplaced : placed past = [])
      (unbilled : billed past = []) : Allowed past (.placeOrder id customer totalCents)
        (.orders (.save (Order.place now id customer totalCents)))
  | bills (placedAt now : Time) (id customer : String) (totalCents : ℤ)
      (once : placed past = [Order.place placedAt id customer totalCents])
      (unbilled : billed past = []) : Allowed past (.placeOrder id customer totalCents)
        (.invoices (.save (Invoice.issue now (invoiceId id) id totalCents)))
  | looks (orderId : String) :
      Allowed past (.invoiceFor orderId) (.invoices (.findById (invoiceId orderId)))

/-- What a call has done once it has its response. -/
inductive Ended (past : List MonolithEvent) : Request → Response → Prop where
  | settled (placedAt issuedAt : Time) (id customer : String) (totalCents : ℤ)
      (once : placed past = [Order.place placedAt id customer totalCents])
      (issued : billed past = [Invoice.issue issuedAt (invoiceId id) id totalCents]) :
      Ended past (.placeOrder id customer totalCents) (.placed (.ok ()))
  | refused (choice : RepositoryChoice) (now : Time) (id customer : String) (totalCents : ℤ)
      (error : RepositoryError) (unplaced : placed past = [])
      (did : (⟨choice, .orders (.save (Order.place now id customer totalCents)), .error error⟩ :
        MonolithEvent) ∈ past) :
      Ended past (.placeOrder id customer totalCents) (.placed (.error (mapRepositoryError error)))
  | unbilled (choice : RepositoryChoice) (id customer : String) (totalCents : ℤ)
      (invoice : InvoiceAggregate) (error : RepositoryError) (fault : EventBusError)
      (did : (⟨choice, .invoices (.save invoice), .error error⟩ : MonolithEvent) ∈ past) :
      Ended past (.placeOrder id customer totalCents) (.placed (.error (.eventBus fault)))
  | looked (choice : RepositoryChoice) (orderId : String) (found : Option InvoiceAggregate)
      (did : (⟨choice, .invoices (.findById (invoiceId orderId)), found⟩ : MonolithEvent) ∈ past) :
      Ended past (.invoiceFor orderId) (.found found)

/-- A publish calls the one subscriber and passes its error on. -/
theorem publish_eq (event : OrderPlaced) : publish event =
    (issueInvoiceOnOrderPlaced event >>= fun handled =>
      pure (handled.mapError fun source => .handlerError "OrderPlaced" source)) := by
  show (issueInvoiceOnOrderPlaced event).bind _ = (issueInvoiceOnOrderPlaced event).bind _
  apply congrArg
  funext handled
  cases handled <;> rfl

/-- A call that places an order saves it and publishes its one event. -/
theorem placeOrder_eq (id customer : String) (totalCents : ℤ) : placeOrder id customer totalCents =
    (Program.call (S := monolithSignature) (.orders .utcNow) >>= fun now =>
      Program.call (S := monolithSignature)
        (.orders (.save (Order.place now id customer totalCents))) >>= fun saved =>
      match saved with
      | .error error => pure (.error (mapRepositoryError error))
      | .ok () => publish ⟨id, customer, totalCents, now⟩ >>= fun published =>
          pure (published.mapError .eventBus)) := by
  apply congrArg (Program.await _)
  funext now
  apply congrArg (Program.await _)
  funext saved
  cases saved with
  | error error => rfl
  | ok _ =>
      show (publish _ >>= _) >>= _ = publish _ >>= _
      rw [Program.bind_assoc]
      apply congrArg (publish _ >>= ·)
      funext published
      cases published <;> rfl

section Calls

variable {past : List MonolithEvent} {id customer : String} {totalCents : ℤ}

/-- The subscriber issues the invoice of the order that was placed. -/
theorem obeys_publish {placedAt : Time}
    (once : placed past = [Order.place placedAt id customer totalCents])
    (unbilled : billed past = []) :
    (publish ⟨id, customer, totalCents, placedAt⟩).Obeys
      (fun past op => Allowed past (.placeOrder id customer totalCents) op)
      (fun past result => match result with
        | .ok () => placed past = [Order.place placedAt id customer totalCents] ∧
            ∃ issuedAt, billed past = [Invoice.issue issuedAt (invoiceId id) id totalCents]
        | .error _ => ∃ choice invoice error,
            (⟨choice, .invoices (.save invoice), .error error⟩ : MonolithEvent) ∈ past) past := by
  rw [publish_eq]
  refine ⟨.datesInvoice _, fun choice now => ?_⟩
  have once' : placed (⟨choice, .invoices .utcNow, now⟩ :: past) =
      [Order.place placedAt id customer totalCents] := once
  have unbilled' : billed (⟨choice, .invoices .utcNow, now⟩ :: past) = [] := unbilled
  refine ⟨.bills placedAt now id customer totalCents once' unbilled', fun choice' saved => ?_⟩
  cases saved with
  | error error => exact ⟨choice', _, error, List.mem_cons_self⟩
  | ok _ =>
      refine ⟨once', now, ?_⟩
      rw [billed_cons, unbilled']
      rfl

theorem obeys_placeOrder (id customer : String) (totalCents : ℤ) :
    (placeOrder id customer totalCents).Obeys
      (fun past op => Allowed past (.placeOrder id customer totalCents) op)
      (fun past result => Ended past (.placeOrder id customer totalCents) (.placed result)) [] := by
  rw [placeOrder_eq]
  refine Program.Obeys.call (.datesOrder _) fun choice now => ?_
  refine Program.Obeys.call (.places now id customer totalCents rfl rfl) fun choice' saved => ?_
  cases saved with
  | error error => exact .refused choice' now id customer totalCents error rfl List.mem_cons_self
  | ok _ =>
      refine Program.Obeys.bind (obeys_publish rfl rfl) fun past result ended => ?_
      cases result with
      | error fault =>
          obtain ⟨choice, invoice, error, did⟩ := ended
          exact .unbilled choice id customer totalCents invoice error fault did
      | ok _ =>
          obtain ⟨once, issuedAt, issued⟩ := ended
          exact .settled now issuedAt id customer totalCents once issued

/-- Whatever is asked for, a call does what it may, and its response tells what it has done. -/
theorem obeys_body (request : Request) :
    (body request).Obeys (fun past op => Allowed past request op)
      (fun past response => Ended past request response) [] := by
  cases request with
  | placeOrder id customer totalCents =>
      exact Program.Obeys.bind (obeys_placeOrder id customer totalCents)
        fun past result ended => ended
  | invoiceFor orderId =>
      exact ⟨.looks orderId, fun choice found => .looked choice orderId found List.mem_cons_self⟩

end Calls

/-! ## Whole runs -/

/-- The invoice of an order, as billing keeps it. -/
def Bills (invoice : InvoiceAggregate) (order : OrderAggregate) : Prop :=
  invoice.state = ⟨invoiceId order.state.id, order.state.id, order.state.totalCents⟩

/-- What a call was told: an order that is refused is there already, and an invoice that was read
is there. -/
structure Knows (shared : Repositories) (past : List MonolithEvent) : Prop where
  refused : ∀ choice order error,
    (⟨choice, .orders (.save order), .error error⟩ : MonolithEvent) ∈ past →
    error = .concurrencyConflict 0 (some 1) ∧
      ∃ held, shared.orders.get order.state.id = some held
  read : ∀ choice key invoice,
    (⟨choice, .invoices (.findById key), some invoice⟩ : MonolithEvent) ∈ past →
    shared.invoices.get key = some invoice

/-- A response, by the repositories of the two contexts. -/
inductive Told (shared : Repositories) : Request → Response → Prop where
  | settled (id customer : String) (totalCents : ℤ) (order : OrderAggregate)
      (invoice : InvoiceAggregate) (held : shared.orders.get id = some order)
      (asked : order.state = ⟨id, customer, totalCents⟩)
      (issued : shared.invoices.get (invoiceId id) = some invoice) (bills : Bills invoice order) :
      Told shared (.placeOrder id customer totalCents) (.placed (.ok ()))
  | taken (id customer : String) (totalCents : ℤ) (order : OrderAggregate)
      (held : shared.orders.get id = some order) :
      Told shared (.placeOrder id customer totalCents)
        (.placed (.error (.concurrencyConflict 0 (some 1))))
  | billed (orderId : String) (invoice : InvoiceAggregate)
      (issued : shared.invoices.get (invoiceId orderId) = some invoice) :
      Told shared (.invoiceFor orderId) (.found (some invoice))
  | unbilled (orderId : String) : Told shared (.invoiceFor orderId) (.found none)

section Serve

variable {shared after : Repositories} {choice : RepositoryChoice}

theorem serve_orders {op : RepositoryOp String Order OrderPlaced} {reply : op.Reply}
    (served : system.serve shared choice (.orders op) = some (after, reply)) :
    InMemoryRepository.serve Order.id shared.orders choice op = some (after.orders, reply) ∧
      after.invoices = shared.invoices := by
  obtain ⟨out, entered, same⟩ := Option.map_eq_some_iff.mp served
  cases same
  exact ⟨entered, rfl⟩

theorem serve_invoices {op : RepositoryOp String Invoice InvoiceIssued} {reply : op.Reply}
    (served : system.serve shared choice (.invoices op) = some (after, reply)) :
    InMemoryRepository.serve Invoice.id shared.invoices choice op = some (after.invoices, reply) ∧
      after.orders = shared.orders := by
  obtain ⟨out, entered, same⟩ := Option.map_eq_some_iff.mp served
  cases same
  exact ⟨entered, rfl⟩

end Serve

section Runs

variable {C : MonolithPool → Action RepositoryChoice Request → Prop} {p : MonolithPool}
  (reached : system.Reaches C initial p)

include reached

/-- The orders are those that the calls have saved. -/
theorem orders_filled :
    Filled Order.id p.shared.orders (p.tasks.flatMap fun t => placed t.past) := by
  apply filled_of_reaches Repositories.orders placedBy reached rfl rfl
  · intro s request s' args arrived
    cases arrived
    rfl
  · intro q i t op next choice s reply before found awaits served
    obtain ⟨request, past, rest⟩ := t
    cases before.obeys_op rfl obeys_body found awaits with
    | datesOrder =>
        obtain ⟨entered, -⟩ := serve_orders served
        exact .inl ⟨rfl, (congrArg Prod.fst (Option.some.inj entered)).symm⟩
    | datesInvoice | looks => exact .inl ⟨rfl, (serve_invoices served).2⟩
    | bills placedAt now id customer totalCents =>
        exact .inl ⟨rfl, (serve_invoices served).2⟩
    | places now id customer totalCents =>
        have entered := Option.some.inj (serve_orders served).1
        cases reply with
        | error error =>
            rcases saveEntry_cases Order.id entered with ⟨done, -⟩ | ⟨-, same⟩
            · cases done
            · exact .inl ⟨rfl, same⟩
        | ok _ => exact .inr ⟨_, rfl, rfl, entered⟩

/-- The invoices are those that the calls have saved. -/
theorem invoices_filled :
    Filled Invoice.id p.shared.invoices (p.tasks.flatMap fun t => billed t.past) := by
  apply filled_of_reaches Repositories.invoices billedBy reached rfl rfl
  · intro s request s' args arrived
    cases arrived
    rfl
  · intro q i t op next choice s reply before found awaits served
    obtain ⟨request, past, rest⟩ := t
    cases before.obeys_op rfl obeys_body found awaits with
    | datesOrder | places => exact .inl ⟨rfl, (serve_orders served).2⟩
    | datesInvoice | looks =>
        obtain ⟨entered, -⟩ := serve_invoices served
        exact .inl ⟨rfl, (congrArg Prod.fst (Option.some.inj entered)).symm⟩
    | bills placedAt now id customer totalCents =>
        have entered := Option.some.inj (serve_invoices served).1
        cases reply with
        | error error =>
            rcases saveEntry_cases Invoice.id entered with ⟨done, -⟩ | ⟨-, same⟩
            · cases done
            · exact .inl ⟨rfl, same⟩
        | ok _ => exact .inr ⟨_, rfl, rfl, entered⟩

/-- A call saves the order it was asked to place, and the invoice of that order. -/
theorem saves_asked : ∀ t ∈ p.tasks,
    (∀ order ∈ placed t.past, ∃ now id customer totalCents,
      t.args = .placeOrder id customer totalCents ∧
        order = Order.place now id customer totalCents) ∧
    ∀ invoice ∈ billed t.past, ∃ order ∈ placed t.past, Bills invoice order := by
  refine reached.forall_tasks (Q := fun request past =>
    (∀ order ∈ placed past, ∃ now id customer totalCents,
      request = .placeOrder id customer totalCents ∧
        order = Order.place now id customer totalCents) ∧
    ∀ invoice ∈ billed past, ∃ order ∈ placed past, Bills invoice order) rfl ?_ ?_
  · intro request
    exact ⟨by simp [placed], by simp [billed]⟩
  · intro q i t op next choice s reply before found awaits _ _ known
    obtain ⟨request, past, rest⟩ := t
    simp only at known
    cases before.obeys_op rfl obeys_body found awaits with
    | datesOrder | datesInvoice | looks => exact known
    | places now id customer totalCents unplaced unbilled =>
        rw [placed_cons, billed_cons, unplaced, unbilled]
        cases reply with
        | error error => simp [placedBy, billedBy]
        | ok _ =>
            refine ⟨fun order listed => ?_, by simp [billedBy]⟩
            exact ⟨now, id, customer, totalCents, rfl, List.mem_singleton.mp listed⟩
    | bills placedAt now id customer totalCents once unbilled =>
        refine ⟨known.1, fun invoice listed => ?_⟩
        rw [billed_cons, unbilled] at listed
        cases reply with
        | error error => cases listed
        | ok _ =>
            rw [List.mem_singleton.mp listed]
            refine ⟨Order.place placedAt id customer totalCents, ?_, rfl⟩
            show _ ∈ placed past
            rw [once]
            exact List.mem_singleton_self _

/-- The invoice of an order that was placed can be saved. -/
theorem bill_saved : ∀ t ∈ p.tasks, ∀ choice invoice error,
    (⟨choice, .invoices (.save invoice), .error error⟩ : MonolithEvent) ∉ t.past := by
  refine reached.forall_tasks (Q := fun _ past => ∀ choice invoice error,
    (⟨choice, .invoices (.save invoice), .error error⟩ : MonolithEvent) ∉ past) rfl ?_ ?_
  · intro request choice invoice error did
    cases did
  · intro q i t op next choice s reply before found awaits _ served known choice' invoice error did
    rcases List.mem_cons.mp did with now | earlier
    · cases now
      obtain ⟨request, past, rest⟩ := t
      cases before.obeys_op rfl obeys_body found awaits with
      | bills placedAt now id customer totalCents once unbilled =>
          -- what is in the way bills an order with the same id, so the same call placed that
          obtain ⟨-, -, earlier, listed, same⟩ := (invoices_filled before).refused rfl
            (Option.some.inj (serve_invoices served).1)
          obtain ⟨u, started, issued⟩ := List.mem_flatMap.mp listed
          obtain ⟨j, at_j⟩ := List.getElem?_of_mem started
          obtain ⟨order, placedByThat, bills⟩ := (saves_asked before u started).2 earlier issued
          have one : j = i := by
            have here : Order.place placedAt id customer totalCents ∈ placed past := by
              rw [once]
              exact List.mem_singleton_self _
            have ids : invoiceId order.state.id = invoiceId id :=
              (congrArg Invoice.id bills).symm.trans same
            apply (orders_filled before).alone at_j found placedByThat here
            exact (String.append_right_inj _).mp ids
          subst one
          rw [found] at at_j
          cases at_j
          rw [unbilled] at issued
          cases issued
    · exact known choice' invoice error earlier

/-- What was placed stays placed. -/
theorem order_kept {q : MonolithPool} (later : system.Reaches C p q) {id : String}
    {order : OrderAggregate} (held : p.shared.orders.get id = some order) :
    q.shared.orders.get id = some order :=
  (orders_filled reached).kept (orders_filled (reached.trans later)) (later.subset_done placedBy) held

/-- What was billed stays billed. -/
theorem invoice_kept {q : MonolithPool} (later : system.Reaches C p q) {key : String}
    {invoice : InvoiceAggregate} (held : p.shared.invoices.get key = some invoice) :
    q.shared.invoices.get key = some invoice :=
  (invoices_filled reached).kept (invoices_filled (reached.trans later))
    (later.subset_done billedBy) held

/-- What the calls were told holds from then on. -/
theorem knows : ∀ t ∈ p.tasks, Knows p.shared t.past := by
  refine reached.invariant (P := fun p => ∀ t ∈ p.tasks, Knows p.shared t.past) ?_ ?_
  · intro t started
    cases started
  · intro q r action before known side stepped
    have later : system.Reaches C q r := .single ⟨action, side, stepped⟩
    have keeps : ∀ {past : List MonolithEvent}, Knows q.shared past → Knows r.shared past := by
      intro past knows
      refine ⟨fun choice order error did => ?_, fun choice key invoice did => ?_⟩
      · obtain ⟨conflict, held, found⟩ := knows.refused choice order error did
        exact ⟨conflict, held, order_kept before later found⟩
      · exact invoice_kept before later (knows.read choice key invoice did)
    intro u started
    obtain ⟨request, s, args, rfl, arrived, rfl⟩ |
      ⟨i, choice, t, op, next, s, reply, rfl, found, awaits, served, rfl⟩ :=
      System.step_cases stepped
    · rcases Pool.mem_start started with old | ⟨a, -, rfl⟩
      · exact keeps (known u old)
      · exact ⟨fun choice order error did => (by cases did),
          fun choice key invoice did => (by cases did)⟩
    · rcases List.mem_or_eq_of_mem_set started with old | rfl
      · exact keeps (known u old)
      · have soFar := keeps (known t (List.mem_of_getElem? found))
        refine ⟨fun choice' order error did => ?_, fun choice' key invoice did => ?_⟩
        · rcases List.mem_cons.mp did with now | earlier
          · cases now
            obtain ⟨request, past, rest⟩ := t
            cases before.obeys_op rfl obeys_body found awaits with
            | places now id customer totalCents =>
                obtain ⟨conflict, -, first, listed, same⟩ := (orders_filled before).refused rfl
                  (Option.some.inj (serve_orders served).1)
                refine ⟨conflict, stored first, order_kept before later ?_⟩
                exact ((orders_filled before).held _ _).mpr ⟨first, listed, same, rfl⟩
          · exact soFar.refused choice' order error earlier
        · rcases List.mem_cons.mp did with now | earlier
          · cases now
            have entered := Option.some.inj (serve_invoices served).1
            have kept : q.shared.invoices = s.invoices := congrArg Prod.fst entered
            rw [Pool.advance_shared, ← kept]
            exact congrArg Prod.snd entered
          · exact soFar.read choice' key invoice earlier

/-- What a call has done once it has its response. -/
theorem ended_of_reaches : ∀ t ∈ p.tasks, ∀ response, t.rest = .ret response →
    Ended t.past t.args response := by
  intro t started response done
  have obeys := reached.obeys rfl obeys_body t started
  rw [done] at obeys
  exact obeys

/-- The call that placed an order, and no other, says so. -/
theorem placed_once {id : String} {order : OrderAggregate}
    (held : p.shared.orders.get id = some order) : order.state.id = id ∧
      ∃ i t, p.tasks[i]? = some t ∧
        t.args = .placeOrder id order.state.customer order.state.totalCents ∧
        (∀ response, t.rest = .ret response → response = .placed (.ok ())) ∧
        ∀ (j : ℕ) u customer totalCents, p.tasks[j]? = some u →
          u.args = .placeOrder id customer totalCents → u.rest = .ret (.placed (.ok ())) →
          j = i := by
  obtain ⟨first, listed, same, rfl⟩ := ((orders_filled reached).held id order).mp held
  obtain ⟨t, started, saved⟩ := List.mem_flatMap.mp listed
  obtain ⟨i, found⟩ := List.getElem?_of_mem started
  obtain ⟨now, id', customer, totalCents, asked, rfl⟩ :=
    (saves_asked reached t started).1 first saved
  cases same
  refine ⟨rfl, i, t, found, asked, fun response done => ?_, ?_⟩
  · have ended := ended_of_reaches reached t started response done
    obtain ⟨request, past, rest⟩ := t
    cases ended with
    | settled => rfl
    | refused _ _ _ _ _ _ unplaced =>
        rw [unplaced] at saved
        cases saved
    | unbilled choice _ _ _ invoice error _ did =>
        exact (bill_saved reached _ started choice invoice error did).elim
    | looked => cases asked
  · intro j u customer' totalCents' at_j asked' done
    have ended := ended_of_reaches reached u (List.mem_of_getElem? at_j) _ done
    obtain ⟨request, past, rest⟩ := u
    cases asked'
    cases ended with
    | settled placedAt issuedAt _ _ _ once =>
        apply (orders_filled reached).alone at_j found (once ▸ List.mem_singleton_self _) saved
        rfl

/-- A response holds of the repositories as they are. -/
theorem told_of_reaches : ∀ t ∈ p.tasks, ∀ response, t.rest = .ret response →
    Told p.shared t.args response := by
  intro t started response done
  have ended := ended_of_reaches reached t started response done
  have knows := knows reached t started
  have silent := bill_saved reached t started
  obtain ⟨request, past, rest⟩ := t
  cases ended with
  | settled placedAt issuedAt id customer totalCents once issued =>
      have order : Order.place placedAt id customer totalCents ∈ placed past := by
        rw [once]
        exact List.mem_singleton_self _
      have invoice : Invoice.issue issuedAt (invoiceId id) id totalCents ∈ billed past := by
        rw [issued]
        exact List.mem_singleton_self _
      refine .settled id customer totalCents (stored (Order.place placedAt id customer totalCents))
        (stored (Invoice.issue issuedAt (invoiceId id) id totalCents)) ?_ rfl ?_ rfl
      · exact ((orders_filled reached).held _ _).mpr
          ⟨_, List.mem_flatMap.mpr ⟨_, started, order⟩, rfl, rfl⟩
      · exact ((invoices_filled reached).held _ _).mpr
          ⟨_, List.mem_flatMap.mpr ⟨_, started, invoice⟩, rfl, rfl⟩
  | refused choice now id customer totalCents error unplaced did =>
      obtain ⟨rfl, order, held⟩ := knows.refused choice _ error did
      exact .taken id customer totalCents order held
  | unbilled choice id customer totalCents invoice error fault did =>
      exact (silent choice invoice error did).elim
  | looked choice orderId found did =>
      cases found with
      | none => exact .unbilled orderId
      | some invoice => exact .billed orderId invoice (knows.read choice _ invoice did)

end Runs

section Settled

variable {p q : MonolithPool}

/-- **Billing follows the orders.**  In every state of any number of concurrent calls: an invoice
bills an order that is held, for its total; an order was placed by one call, and only that call
returns `Ok` for its id; and a call that has returned `Ok` has its order placed and billed, while
any other call for that id is told of the conflict, and never of a failed subscriber. -/
theorem invoices_follow_orders (reached : system.Reaches System.Any initial p) :
    (∀ key invoice, p.shared.invoices.get key = some invoice → ∃ order,
      p.shared.orders.get invoice.state.orderId = some order ∧ key = invoiceId order.state.id ∧
      Bills invoice order) ∧
    (∀ id order, p.shared.orders.get id = some order → order.state.id = id ∧
      ∃ i t, p.tasks[i]? = some t ∧
        t.args = .placeOrder id order.state.customer order.state.totalCents ∧
        (∀ response, t.rest = .ret response → response = .placed (.ok ())) ∧
        ∀ (j : ℕ) u customer totalCents, p.tasks[j]? = some u →
          u.args = .placeOrder id customer totalCents → u.rest = .ret (.placed (.ok ())) →
          j = i) ∧
    ∀ t ∈ p.tasks, ∀ response, t.rest = .ret response → Told p.shared t.args response := by
  refine ⟨fun key invoice held => ?_, fun id order => placed_once reached, told_of_reaches reached⟩
  obtain ⟨first, listed, same, rfl⟩ := ((invoices_filled reached).held key invoice).mp held
  obtain ⟨t, started, issued⟩ := List.mem_flatMap.mp listed
  obtain ⟨order, saved, bills⟩ := (saves_asked reached t started).2 first issued
  refine ⟨stored order, ?_, ?_, bills⟩
  · apply ((orders_filled reached).held _ _).mpr
    exact ⟨order, List.mem_flatMap.mpr ⟨t, started, saved⟩,
      (congrArg Invoice.orderId bills).symm, rfl⟩
  · exact same.symm.trans (congrArg Invoice.id bills)

/-- Calls that arrive once an invoice is there read it. -/
theorem reads_invoice (reached : system.Reaches System.Any initial p)
    (later : system.Reaches System.Any p q) {key : String} {invoice : InvoiceAggregate}
    (held : p.shared.invoices.get key = some invoice) :
    ∀ (j : ℕ) u, p.tasks.length ≤ j → q.tasks[j]? = some u → ∀ choice found,
      (⟨choice, .invoices (.findById key), found⟩ : MonolithEvent) ∈ u.past →
      found = some invoice := by
  refine later.invariant (P := fun q => ∀ (j : ℕ) u, p.tasks.length ≤ j → q.tasks[j]? = some u →
    ∀ choice found, (⟨choice, .invoices (.findById key), found⟩ : MonolithEvent) ∈ u.past →
    found = some invoice) ?_ ?_
  · intro j u afterwards at_j
    have inside := (List.getElem?_eq_some_iff.mp at_j).1
    omega
  · intro r s action soFar known _ stepped j u afterwards at_j choice found did
    obtain ⟨request, after, args, rfl, arrived, rfl⟩ |
      ⟨i, choice', t, op, next, after, reply, rfl, at_i, awaits, served, rfl⟩ :=
      System.step_cases stepped
    · rcases Pool.getElem?_start at_j with old | ⟨-, a, -, rfl⟩
      · exact known j u afterwards old choice found did
      · cases did
    · rcases Pool.getElem?_advance at_i at_j with ⟨rfl, rfl⟩ | ⟨-, old⟩
      · rcases List.mem_cons.mp did with now | earlier
        · cases now
          have entered := Option.some.inj (serve_invoices served).1
          have answer : r.shared.invoices.get key = found := congrArg Prod.snd entered
          rw [← answer]
          exact invoice_kept reached soFar held
        · exact known j t afterwards at_i choice found earlier
      · exact known j u afterwards old choice found did

/-- **What was placed is there for all that comes later.**  Once a call has returned `Ok`, whatever
runs beside it, a call that arrives afterwards finds the invoice of the order, and one that places
the same id again is refused. -/
theorem placed_for_good (reached : system.Reaches System.Any initial p) {i : ℕ}
    {t : Async.Task monolithSignature RepositoryChoice Request Response} {id customer : String}
    {totalCents : ℤ} (found : p.tasks[i]? = some t)
    (asked : t.args = .placeOrder id customer totalCents)
    (done : t.rest = .ret (.placed (.ok ()))) (later : system.Reaches System.Any p q) :
    ∀ (j : ℕ) u, p.tasks.length ≤ j → q.tasks[j]? = some u → ∀ response, u.rest = .ret response →
      (u.args = .invoiceFor id → ∃ invoice, response = .found (some invoice) ∧
        invoice.state = ⟨invoiceId id, id, totalCents⟩) ∧
      ∀ customer' totalCents', u.args = .placeOrder id customer' totalCents' →
        response = .placed (.error (.concurrencyConflict 0 (some 1))) := by
  intro j u afterwards at_j response returned
  have told := told_of_reaches reached t (List.mem_of_getElem? found) _ done
  rw [asked] at told
  cases told with
  | settled _ _ _ order invoice held same issued bills =>
      refine ⟨fun looks => ?_, fun customer' totalCents' places => ?_⟩
      · have ended := ended_of_reaches (reached.trans later) u (List.mem_of_getElem? at_j) response
          returned
        rw [looks] at ended
        cases ended with
        | looked choice _ answer did =>
            cases reads_invoice reached later issued j u afterwards at_j choice answer did
            refine ⟨invoice, rfl, ?_⟩
            rw [Bills, same] at bills
            exact bills
      · have ended := told_of_reaches (reached.trans later) u (List.mem_of_getElem? at_j) response
          returned
        rw [places] at ended
        cases ended with
        | taken => rfl
        | settled =>
            -- both say that they placed it, so they are one call
            obtain ⟨-, k, -, -, -, -, only⟩ :=
              placed_once (reached.trans later) (order_kept reached later held)
            obtain ⟨t', at_i, called, -, same⟩ := later.goes_on found
            have finished : t.Finished := by
              unfold Async.Task.Finished
              rw [done]
              trivial
            cases same finished
            have first := only i t customer totalCents at_i asked done
            have second := only j u customer' totalCents' at_j places returned
            have inside := (List.getElem?_eq_some_iff.mp found).1
            omega

end Settled

/-- Two calls place order 7 at the same time, and one of them is refused. -/
def placedTwice : List (Action RepositoryChoice Request) :=
  [.arrive (.placeOrder "7" "Ada" 4200), .arrive (.placeOrder "7" "Bob" 10), .step 0 {}, .step 1 {},
    .step 1 {}, .step 0 {}, .step 1 {}, .step 1 {}]

/-- A query of its invoice. -/
def queried : List (Action RepositoryChoice Request) := [.arrive (.invoiceFor "7"), .step 2 {}]

/-- What the call at a place was asked, if it has returned, and whether it has placed an order. -/
def outcome (p : MonolithPool) (i : ℕ) : Option (Request × Bool) :=
  p.tasks[i]?.bind fun t => t.rest.result.map fun response =>
    (t.args, match response with
      | .placed (.ok ()) => true
      | _ => false)

theorem invoices_follow_orders_placedTwice : ∃ p : MonolithPool,
    system.Reaches System.Any initial p ∧
    outcome p 0 = some (.placeOrder "7" "Ada" 4200, false) ∧
    outcome p 1 = some (.placeOrder "7" "Bob" 10, true) ∧
    ∀ key invoice, p.shared.invoices.get key = some invoice → ∃ order,
      p.shared.orders.get invoice.state.orderId = some order ∧ key = invoiceId order.state.id ∧
      Bills invoice order := by
  obtain ⟨p, reached, found⟩ := System.exists_reaches_of_exec
    (f := fun p : MonolithPool => decide
      (outcome p 0 = some (.placeOrder "7" "Ada" 4200, false) ∧
        outcome p 1 = some (.placeOrder "7" "Bob" 10, true)))
    (system.along_any initial placedTwice) (by decide +kernel)
  obtain ⟨ada, bob⟩ := of_decide_eq_true found
  exact ⟨p, reached, ada, bob, (invoices_follow_orders reached).1⟩

theorem exists_of_outcome {p : MonolithPool} {i : ℕ} {request : Request} {ok : Bool}
    (known : outcome p i = some (request, ok)) : ∃ t response, p.tasks[i]? = some t ∧
      t.args = request ∧ t.rest = .ret response ∧ (ok = true → response = .placed (.ok ())) := by
  obtain ⟨t, found, rest⟩ := Option.bind_eq_some_iff.mp known
  obtain ⟨response, returned, same⟩ := Option.map_eq_some_iff.mp rest
  cases same
  refine ⟨t, response, found, rfl, Program.eq_ret_of_result returned, fun ok => ?_⟩
  split at ok
  · rfl
  · cases ok

theorem placed_for_good_placedTwice : ∃ p q : MonolithPool,
    outcome p 1 = some (.placeOrder "7" "Bob" 10, true) ∧ system.Reaches System.Any p q ∧
    ∃ u invoice, q.tasks[2]? = some u ∧ u.rest = .ret (.found (some invoice)) ∧
      invoice.state = ⟨invoiceId "7", "7", 10⟩ := by
  obtain ⟨p, reached, found⟩ := System.exists_reaches_of_exec
    (f := fun p : MonolithPool => decide (p.tasks.length = 2 ∧
      outcome p 1 = some (.placeOrder "7" "Bob" 10, true) ∧
      (system.exec p queried).any (fun q => outcome q 2 = some (.invoiceFor "7", false)) = true))
    (system.along_any initial placedTwice) (by decide +kernel)
  obtain ⟨two, bob, rest⟩ := of_decide_eq_true found
  obtain ⟨q, later, looked⟩ :=
    System.exists_reaches_of_exec (system.along_any p queried) rest
  obtain ⟨t, response, at_1, asked, done, ok⟩ := exists_of_outcome bob
  cases ok rfl
  obtain ⟨u, response, at_2, looks, returned, -⟩ := exists_of_outcome (of_decide_eq_true looked)
  obtain ⟨invoice, rfl, bills⟩ := (placed_for_good reached at_1 asked done later 2 u (by omega) at_2
    response returned).1 looks
  exact ⟨p, q, bob, later, u, invoice, at_2, returned, bills⟩

end Monolith

end Pharos

import Pharos.Orders.Service

/-!
# What the order service does to its orders

Any number of requests at a time.  A request saves at most once, and only what it made of an order
it has read or of a new one; it publishes the events of what it saved, in order, and only after the
save.  So the saves of an order form a serial history: each is the effect of one request on exactly
what the save before it left (`orders_serializable`), the events of that history tell the stored
order, and a response tells what became of its request (`orders_told`).
-/

namespace Pharos

namespace Orders

open Async InMemoryRepository

abbrev OrderStep := RepositoryEvent Uuid Order OrderEvent

/-- The order that was saved. -/
def savedBy : OrderStep → Option OrderAggregate
  | ⟨_, .save order, .ok ()⟩ => some order
  | _ => none

/-- The event that was published to handlers that all accepted it. -/
def publishedBy : OrderStep → Option OrderEvent
  | ⟨_, .publish event, .ok ()⟩ => some event
  | _ => none

/-- The orders a request saved, in order. -/
def saves (past : List OrderStep) : List OrderAggregate := (past.filterMap savedBy).reverse

/-- The events a request published, in order. -/
def published (past : List OrderStep) : List OrderEvent := (past.filterMap publishedBy).reverse

theorem saves_cons (step : OrderStep) (past : List OrderStep) :
    saves (step :: past) = saves past ++ (savedBy step).toList := by
  unfold saves
  rw [List.filterMap_cons]
  cases savedBy step <;> simp

theorem published_cons (step : OrderStep) (past : List OrderStep) :
    published (step :: past) = published past ++ (publishedBy step).toList := by
  unfold published
  rw [List.filterMap_cons]
  cases publishedBy step <;> simp

section Requests

variable {Price : Type} (front : Front Price)

/-- What a request makes of the order it has read. -/
def Performs : Request Price → OrderAggregate → OrderAggregate → Prop
  | .addItem command, read, order => front.validateInput command = .ok () ∧
      ∃ itemId now quantity unitPrice, Quantity.new command.quantity = .ok quantity ∧
        Money.brl (front.cents command.unitPriceReais) = .ok unitPrice ∧
        Order.addItem itemId now read command.description quantity unitPrice = .ok order
  | .confirmOrder _, read, order => ∃ now, Order.confirm now read = .ok order
  | .createOrder _, _, _ | .orderTotal _, _, _ => False

/-- A new order. -/
def Creates : Request Price → OrderAggregate → Prop
  | .createOrder customerId, order => ∃ id now, order = Order.create id now customerId
  | _, _ => False

/-- The id of the order that a request is about. -/
def Request.target : Request Price → Option Uuid
  | .createOrder _ => none
  | .addItem command => some command.orderId
  | .confirmOrder orderId | .orderTotal orderId => some orderId

/-- What a request may save: a new order, or what it makes of one it has read. -/
def Derived (request : Request Price) (past : List OrderStep) (order : OrderAggregate) : Prop :=
  Creates request order ∨ ∃ choice id read, request.target = some id ∧
    (⟨choice, .findById id, some read⟩ : OrderStep) ∈ past ∧ Performs front request read order

/-- What a request may do next. -/
def Allowed (request : Request Price) (past : List OrderStep) :
    RepositoryOp Uuid Order OrderEvent → Prop
  | .save order => saves past = [] ∧ published past = [] ∧ Derived front request past order
  | .publish event => ∃ order later, saves past = [order] ∧
      order.pending = published past ++ event :: later
  | .delete _ => False
  | .findById _ | .nowV7 | .utcNow => True

/-- What a command has done once it has its result; what it returns is about the order it saved. -/
inductive Ended {R : Type} (about : R → OrderAggregate → Prop) (past : List OrderStep) :
    Except AppError R → Prop where
  | done (output : R) (order : OrderAggregate) (result : about output order)
      (saved : saves past = [order]) (told : published past = order.pending) :
      Ended about past (.ok output)
  | refused (error : AppError) (nothing : saves past = []) (silent : published past = []) :
      Ended about past (.error error)
  | untold (source : String) (order : OrderAggregate) (event : OrderEvent) (later : List OrderEvent)
      (saved : saves past = [order]) (rest : order.pending = published past ++ event :: later) :
      Ended about past (.error (.infra source))

/-- What a request has done once it has its response. -/
inductive Answered (request : Request Price) (past : List OrderStep) : Response → Prop where
  | created (order : OrderAggregate) (creates : Creates request order)
      (saved : saves past = [order]) (told : published past = order.pending) :
      Answered request past ⟨200, .id order.state.id⟩
  | done (order : OrderAggregate) (saved : saves past = [order])
      (told : published past = order.pending) : Answered request past ⟨204, .empty⟩
  | refused (error : AppError) (nothing : saves past = []) (silent : published past = []) :
      Answered request past (ApiError.intoResponse error)
  | untold (source : String) (order : OrderAggregate) (event : OrderEvent) (later : List OrderEvent)
      (saved : saves past = [order]) (rest : order.pending = published past ++ event :: later) :
      Answered request past (ApiError.intoResponse (.infra source))
  | unknown (orderId : Uuid) (choice : RepositoryChoice) (query : request = .orderTotal orderId)
      (read : (⟨choice, .findById orderId, none⟩ : OrderStep) ∈ past)
      (nothing : saves past = []) (silent : published past = []) :
      Answered request past ⟨200, .total none⟩
  | totalled (orderId : Uuid) (choice : RepositoryChoice) (order : OrderAggregate)
      (query : request = .orderTotal orderId)
      (read : (⟨choice, .findById orderId, some order⟩ : OrderStep) ∈ past)
      (nothing : saves past = []) (silent : published past = []) :
      Answered request past ⟨200, .total (some ((order.state.items.map fun item =>
        item.unitPrice.cents * item.quantity.value).sum % 2 ^ 64))⟩

variable {front} {request : Request Price} {past : List OrderStep} {order : OrderAggregate}

/-- The events of a saved order are published until a handler fails. -/
theorem obeys_publishBatch {kept : OrderAggregate} (events : List OrderEvent)
    (saved : saves past = [order]) (rest : order.pending = published past ++ events) :
    (publishBatch publish kept events).Obeys (Allowed front request) (fun past out =>
      saves past = [order] ∧ match out.2 with
        | .ok () => published past = order.pending
        | .error _ => ∃ event later, order.pending = published past ++ event :: later) past := by
  induction events generalizing past with
  | nil => exact ⟨saved, by simpa using rest.symm⟩
  | cons event events ih =>
      refine Program.Obeys.call ⟨order, events, saved, rest⟩ fun choice reply => ?_
      cases reply with
      | error error =>
          refine ⟨?_, event, events, ?_⟩
          · rw [saves_cons, saved]
            rfl
          · rw [published_cons]
            exact rest.trans (by simp [publishedBy])
      | ok _ =>
          refine ih ?_ ?_
          · rw [saves_cons, saved]
            rfl
          · rw [published_cons, rest]
            simp [publishedBy]

/-- A save, and then the events. -/
theorem obeys_persist (nothing : saves past = []) (silent : published past = [])
    (derived : Derived front request past order) :
    (persist order).Obeys (Allowed front request) (Ended fun _ saved => saved = order) past := by
  refine Program.Obeys.bind (Q := fun past out => match out.2 with
      | .ok () => saves past = [order] ∧ published past = order.pending
      | .error _ => (saves past = [] ∧ published past = []) ∨
          saves past = [order] ∧ ∃ event later, order.pending = published past ++ event :: later)
    ?_ ?_
  · refine ⟨⟨nothing, silent, derived⟩, fun choice reply => ?_⟩
    cases reply with
    | error error =>
        refine .inl ⟨?_, ?_⟩
        · rw [saves_cons, nothing]
          rfl
        · rw [published_cons, silent]
          rfl
    | ok _ =>
        have saved : saves (⟨choice, .save order, .ok ()⟩ :: past : List OrderStep) = [order] := by
          rw [saves_cons, nothing]
          rfl
        refine (obeys_publishBatch order.pending saved ?_).mono fun past out ended => ?_
        · rw [published_cons, silent]
          rfl
        · obtain ⟨saved, rest⟩ := ended
          cases result : out.2 with
          | error error =>
              rw [result] at rest
              exact .inr ⟨saved, rest⟩
          | ok _ =>
              rw [result] at rest
              exact ⟨saved, rest⟩
  · intro past out ended
    obtain ⟨kept, result⟩ := out
    cases result with
    | ok _ => exact .done () order rfl ended.1 ended.2
    | error error =>
        rcases ended with ⟨nothing, silent⟩ | ⟨saved, event, later, rest⟩
        · exact .refused _ nothing silent
        · exact .untold _ order event later saved rest

/-- A step that neither saves nor publishes. -/
def Idle (step : OrderStep) : Prop := savedBy step = none ∧ publishedBy step = none

theorem saves_of_idle {step : OrderStep} (idle : Idle step) (nothing : saves past = []) :
    saves (step :: past) = [] := by
  rw [saves_cons, nothing, idle.1]
  rfl

theorem published_of_idle {step : OrderStep} (idle : Idle step) (silent : published past = []) :
    published (step :: past) = [] := by
  rw [published_cons, silent, idle.2]
  rfl

theorem obeys_load (id : Uuid) (nothing : saves past = []) (silent : published past = []) :
    (load front id).Obeys (Allowed front request) (fun past result =>
      saves past = [] ∧ published past = [] ∧ ∀ order, result = .ok order →
        ∃ choice, (⟨choice, .findById id, some order⟩ : OrderStep) ∈ past) past := by
  refine ⟨trivial, fun choice found => ?_⟩
  have idle : Idle ⟨choice, .findById id, found⟩ := ⟨rfl, rfl⟩
  cases found with
  | none => exact ⟨saves_of_idle idle nothing, published_of_idle idle silent, nofun⟩
  | some order =>
      refine ⟨saves_of_idle idle nothing, published_of_idle idle silent, fun other same => ?_⟩
      cases same
      exact ⟨choice, List.mem_cons_self⟩

theorem obeys_createOrder (customerId : Uuid) :
    (createOrder customerId).Obeys (Allowed front (.createOrder customerId))
      (Ended fun id order => Creates (.createOrder customerId : Request Price) order ∧
        id = order.state.id) [] := by
  refine Program.Obeys.call trivial fun choice id =>
    Program.Obeys.call trivial fun choice' now => ?_
  have creates : Creates (.createOrder customerId : Request Price)
      (Order.create id now customerId) := ⟨id, now, rfl⟩
  refine Program.Obeys.bind (obeys_persist rfl rfl (.inl creates)) fun past result ended => ?_
  cases ended with
  | done output order same saved told =>
      exact .done id order ⟨same ▸ creates, same ▸ rfl⟩ saved told
  | refused error nothing silent => exact .refused error nothing silent
  | untold source order event later saved rest => exact .untold source order event later saved rest

theorem Ended.weaken {R : Type} {about about' : R → OrderAggregate → Prop}
    {result : Except AppError R} (ended : Ended about past result)
    (weaker : ∀ output order, about output order → about' output order) : Ended about' past result := by
  cases ended with
  | done output order same saved told => exact .done output order (weaker _ _ same) saved told
  | refused error nothing silent => exact .refused error nothing silent
  | untold source order event later saved rest => exact .untold source order event later saved rest

theorem obeys_addItem (command : AddItem Price) (valid : front.validateInput command = .ok ()) :
    (addItem front command).Obeys (Allowed front (.addItem command))
      (Ended fun _ _ => True) [] := by
  refine Program.Obeys.bind (obeys_load command.orderId rfl rfl) fun past result known => ?_
  obtain ⟨nothing, silent, read⟩ := known
  cases result with
  | error error => exact .refused error nothing silent
  | ok order =>
      obtain ⟨choice, did⟩ := read order rfl
      cases quantity : Quantity.new command.quantity with
      | error error => exact .refused _ nothing silent
      | ok amount =>
          cases price : Money.brl (front.cents command.unitPriceReais) with
          | error error => exact .refused _ nothing silent
          | ok unitPrice =>
              refine Program.Obeys.call trivial fun choice₁ itemId =>
                Program.Obeys.call trivial fun choice₂ now => ?_
              have quiet : Idle ⟨choice₁, .nowV7, itemId⟩ := ⟨rfl, rfl⟩
              have quiet' : Idle ⟨choice₂, .utcNow, now⟩ := ⟨rfl, rfl⟩
              cases added : Order.addItem itemId now order command.description amount unitPrice with
              | error error =>
                  exact .refused _ (saves_of_idle quiet' (saves_of_idle quiet nothing))
                    (published_of_idle quiet' (published_of_idle quiet silent))
              | ok order' =>
                  have performs : Performs front (.addItem command) order order' :=
                    ⟨valid, itemId, now, amount, unitPrice, quantity, price, added⟩
                  refine (obeys_persist (saves_of_idle quiet' (saves_of_idle quiet nothing))
                    (published_of_idle quiet' (published_of_idle quiet silent))
                    (.inr ⟨choice, command.orderId, order, rfl, ?_, performs⟩)).mono
                    fun past result ended => ended.weaken fun _ _ _ => trivial
                  exact List.mem_cons_of_mem _ (List.mem_cons_of_mem _ did)

theorem obeys_confirmOrder (orderId : Uuid) :
    (confirmOrder front orderId).Obeys (Allowed front (.confirmOrder orderId))
      (Ended fun _ _ => True) [] := by
  refine Program.Obeys.bind (obeys_load orderId rfl rfl) fun past result known => ?_
  obtain ⟨nothing, silent, read⟩ := known
  cases result with
  | error error => exact .refused error nothing silent
  | ok order =>
      obtain ⟨choice, did⟩ := read order rfl
      refine Program.Obeys.call trivial fun choice₁ now => ?_
      have quiet : Idle ⟨choice₁, .utcNow, now⟩ := ⟨rfl, rfl⟩
      cases confirmed : Order.confirm now order with
      | error error =>
          exact .refused _ (saves_of_idle quiet nothing) (published_of_idle quiet silent)
      | ok order' =>
          have performs : Performs front (.confirmOrder orderId) order order' := ⟨now, confirmed⟩
          refine (obeys_persist (saves_of_idle quiet nothing) (published_of_idle quiet silent)
            (.inr ⟨choice, orderId, order, rfl, List.mem_cons_of_mem _ did, performs⟩)).mono
            fun past result ended => ended.weaken fun _ _ _ => trivial

/-- A route that dispatches a command. -/
theorem obeys_respond {R : Type} {validated : Except ValidationError Unit}
    {handle : OrderM (Except AppError R)} {about : R → OrderAggregate → Prop} {done : R → Response}
    (handled : validated = .ok () → handle.Obeys (Allowed front request) (Ended about) [])
    (answers : ∀ past output order, about output order → saves past = [order] →
      published past = order.pending → Answered request past (done output)) :
    (dispatch validated handle >>= fun result => pure (respond done result)).Obeys
      (Allowed front request) (Answered request) [] := by
  cases validated with
  | error error => exact .refused _ rfl rfl
  | ok _ =>
      refine Program.Obeys.bind
        (Q := fun past result => Answered request past (respond done result))
        (Program.Obeys.bind (handled rfl) fun past result ended => ?_) fun past result answered =>
        answered
      cases ended with
      | done output order same saved told => exact answers past output order same saved told
      | refused error nothing silent => exact .refused error nothing silent
      | untold source order event later saved rest =>
          exact .untold source order event later saved rest

/-- Whatever a request asks for, it does what it may, and its response tells what became of it. -/
theorem obeys_route (request : Request Price) :
    (route front request).Obeys (Allowed front request) (Answered request) [] := by
  cases request with
  | createOrder customerId =>
      refine obeys_respond (fun _ => obeys_createOrder customerId) ?_
      rintro past id order ⟨creates, rfl⟩ saved told
      exact .created order creates saved told
  | addItem command =>
      exact obeys_respond (obeys_addItem command) fun past _ order _ => .done order
  | confirmOrder orderId =>
      exact obeys_respond (fun _ => obeys_confirmOrder orderId) fun past _ order _ => .done order
  | orderTotal orderId =>
      unfold route getOrderTotal
      refine ⟨trivial, fun choice found => ?_⟩
      cases found with
      | none => exact .unknown orderId choice rfl List.mem_cons_self rfl rfl
      | some order =>
          simp only [Order.total_eq]
          exact .totalled orderId choice order rfl List.mem_cons_self rfl rfl

theorem keeps_route (request : Request Price) : (route front request).Only Keeps := by
  have : Nonempty RepositoryChoice := ⟨{}⟩
  have obeys : (route front request).Obeys (Allowed front request) (Answered request) [] :=
    obeys_route request
  refine obeys.only fun past op allowed id deletes => ?_
  subst deletes
  exact allowed

end Requests

/-! ## A serial history -/

section History

variable {Price : Type} {front : Front Price} {request : Request Price}
  {read before order : OrderAggregate}

/-- A request works on drafts, by an operation of the order. -/
theorem Performs.moves (performs : Performs front request read order) :
    read.state.status = .draft ∧ Moves read order := by
  cases request with
  | addItem command =>
      obtain ⟨-, itemId, now, quantity, unitPrice, -, -, added⟩ := performs
      exact moves_of_addItem added
  | confirmOrder orderId =>
      obtain ⟨now, confirmed⟩ := performs
      exact moves_of_confirm confirmed
  | createOrder _ | orderTotal _ => exact performs.elim

/-- What a request makes of what the repository holds of an order. -/
def Effect (front : Front Price) (request : Request Price) :
    Option OrderAggregate → OrderAggregate → Prop
  | none, order => Creates request order
  | some held, order => request.target = some order.state.id ∧ Performs front request held order

/-- The saves of an order, each the effect of a request that `ran` on exactly what the save before
it left. -/
inductive History (front : Front Price) (ran : Request Price → OrderAggregate → Prop) :
    List OrderAggregate → Prop where
  | nothing : History front ran []
  | saved (request : Request Price) (lived : List OrderAggregate) (order : OrderAggregate)
      (did : ran request order) (rest : History front ran lived)
      (effect : Effect front request (lived.getLast?.map stored) order) :
      History front ran (lived ++ [order])

theorem History.mono {ran ran' : Request Price → OrderAggregate → Prop}
    {lived : List OrderAggregate} (history : History front ran lived)
    (more : ∀ request order, ran request order → ran' request order) : History front ran' lived := by
  induction history with
  | nothing => exact .nothing
  | saved request lived order did _ effect ih =>
      exact .saved request lived order (more request order did) ih effect

/-- The events of a history tell its last order. -/
structure Told (lived : List OrderAggregate) : Prop where
  replayed : replay (lived.flatMap Aggregate.pending) = lived.getLast?.map Aggregate.state
  wellFormed : ∀ order ∈ lived, WellFormed order.state
  final : ∀ (k : ℕ) order, lived[k]? = some order → order.state.status ≠ .draft →
    k + 1 = lived.length

/-- What is created is a draft, and its event tells it. -/
theorem Told.created (creates : Creates request order) : Told [order] := by
  cases request with
  | createOrder customerId =>
      obtain ⟨id, now, rfl⟩ := creates
      refine ⟨rfl, fun order member => ?_, fun k order at_ live => ?_⟩
      · rw [List.mem_singleton.mp member]
        exact nofun
      · have short := (List.getElem?_eq_some_iff.mp at_).1
        simp only [List.length_singleton] at short ⊢
        omega
  | addItem _ | confirmOrder _ | orderTotal _ => exact creates.elim

theorem Told.performed {lived : List OrderAggregate} (told : Told (lived ++ [before]))
    (performs : Performs front request (stored before) order) :
    Told (lived ++ [before] ++ [order]) := by
  obtain ⟨draft, moves⟩ := performs.moves
  obtain ⟨wellFormed, event, raised, applied⟩ := moves.told
  refine ⟨?_, fun other member => ?_, fun k other at_ live => ?_⟩
  · have replayed := told.replayed
    rw [List.getLast?_concat] at replayed
    have alone : order.pending = [event] := raised
    rw [List.flatMap_append, List.flatMap_singleton, alone, replay_concat, replayed,
      List.getLast?_concat]
    exact applied
  · rcases List.mem_append.mp member with old | new
    · exact told.wellFormed other old
    · rw [List.mem_singleton.mp new]
      exact wellFormed
  · -- the order before was a draft, so it is not what has left the draft status
    rw [List.getElem?_append] at at_
    split at at_
    · next inside =>
      have last := told.final k other at_ live
      rw [List.length_append, List.length_singleton] at last
      have here : k = lived.length := by omega
      subst here
      rw [List.getElem?_concat_length] at at_
      cases at_
      exact (live draft).elim
    · next behind =>
      have short := (List.getElem?_eq_some_iff.mp at_).1
      simp only [List.length_append, List.length_singleton] at short behind ⊢
      omega

theorem History.told {ran : Request Price → OrderAggregate → Prop} {lived : List OrderAggregate}
    (history : History front ran lived) : Told lived := by
  induction history with
  | nothing => exact ⟨rfl, by simp, by simp⟩
  | saved request lived order did rest effect ih =>
      cases last : lived.getLast? with
      | none =>
          rw [last] at effect
          rw [List.getLast?_eq_none_iff.mp last]
          exact .created effect
      | some before =>
          rw [last] at effect
          obtain ⟨lived, rfl⟩ := List.getLast?_eq_some_iff.mp last
          exact ih.performed effect.2

end History

/-! ## Whole runs -/

section Runs

variable {Price : Type} {front : Front Price}
  {C : ServicePool Price → Action RepositoryChoice (Request Price) → Prop} {p : ServicePool Price}
  (reached : (service front).Reaches C initial p)

abbrev RunningRequest (Price : Type) :=
  Async.Task (repositorySignature Uuid Order OrderEvent) RepositoryChoice (Request Price) Response

theorem mem_saves_of_suffix {past past' : List OrderStep} {order : OrderAggregate}
    (more : past <:+ past') (saved : order ∈ saves past) : order ∈ saves past' := by
  simp only [saves, List.mem_reverse, List.mem_filterMap] at saved ⊢
  obtain ⟨step, did, same⟩ := saved
  exact ⟨step, more.subset did, same⟩

/-- What goes on with a life is a save, of an order of that id. -/
theorem continued_cases (id : Uuid) (lived : List OrderAggregate) {choice : RepositoryChoice}
    {op : RepositoryOp Uuid Order OrderEvent} (keeps : Keeps op) (reply : op.Reply) :
    (∃ order, (⟨choice, op, reply⟩ : OrderStep) = ⟨choice, .save order, .ok ()⟩ ∧
      order.state.id = id ∧ continued Order.id id lived ⟨choice, op, reply⟩ = lived ++ [order]) ∨
    continued Order.id id lived ⟨choice, op, reply⟩ = lived ∧
      ∀ order, savedBy ⟨choice, op, reply⟩ = some order → order.state.id ≠ id := by
  cases op with
  | delete other => exact (keeps other rfl).elim
  | save order =>
      cases reply with
      | error _ => exact .inr ⟨rfl, nofun⟩
      | ok _ =>
          by_cases here : order.state.id = id
          · exact .inl ⟨order, rfl, here, if_pos here⟩
          · refine .inr ⟨if_neg here, fun other same => ?_⟩
            cases same
            exact here
  | findById _ | nowV7 | utcNow | publish _ => exact .inr ⟨rfl, nofun⟩

include reached

theorem orders_live (id : Uuid) : Lives Order.id id p.shared (life Order.id p id) :=
  lives_of_reaches reached id

/-- What a request may do when it is its turn. -/
theorem allowed_of_reaches {i : ℕ} {t : RunningRequest Price}
    {op : RepositoryOp Uuid Order OrderEvent} {next : op.Reply → OrderM Response}
    (found : p.tasks[i]? = some t) (awaits : t.rest = .await op next) : Allowed front t.args t.past op :=
  reached.obeys_op rfl obeys_route found awaits

/-- A save that succeeds goes on with the history of its order. -/
theorem effect_of_save {i : ℕ} {t : RunningRequest Price} {order : OrderAggregate}
    {next : Except RepositoryError Unit → OrderM Response} (found : p.tasks[i]? = some t)
    (awaits : t.rest = .await (.save order) next) {choice : RepositoryChoice}
    {store : DashMap Uuid OrderAggregate}
    (served : serve Order.id p.shared choice (.save order) = some (store, .ok ())) :
    Effect front t.args ((life Order.id p order.state.id).getLast?.map stored) order := by
  have expected := (orders_live reached order.state.id).expected served
  obtain ⟨-, -, creates | ⟨drawn, id, read, about, did, performs⟩⟩ :=
    allowed_of_reaches reached found awaits
  · cases called : t.args with
    | createOrder customerId =>
        rw [called] at creates
        obtain ⟨id, now, rfl⟩ := creates
        rw [List.eq_nil_of_length_eq_zero expected.symm]
        exact ⟨id, now, rfl⟩
    | addItem _ | confirmOrder _ | orderTotal _ =>
        rw [called] at creates
        exact creates.elim
  · obtain ⟨before, member, rfl⟩ :=
      saved_of_read reached keeps_route id t (List.mem_of_getElem? found) drawn read did
    obtain ⟨version, sameId⟩ := performs.moves.2.same
    obtain ⟨k, at_⟩ := List.mem_iff_getElem?.mp member
    have here : order.state.id = id :=
      sameId.trans ((orders_live reached id).versions k before at_).2
    subst here
    rw [(orders_live reached order.state.id).last_of_version member (version.symm.trans expected)]
    exact ⟨about, performs⟩

/-- A request saves at most once. -/
theorem saves_alone : ∀ t ∈ p.tasks, (saves t.past).length ≤ 1 := by
  refine reached.forall_tasks (Q := fun _ past => (saves past).length ≤ 1) rfl ?_ ?_
  · exact fun _ => Nat.zero_le 1
  · intro q i t op next choice shared reply before found awaits _ _ known
    rw [saves_cons]
    cases saved : savedBy ⟨choice, op, reply⟩ with
    | none => simpa using known
    | some order =>
        cases op with
        | save _ =>
            obtain ⟨nothing, -⟩ := allowed_of_reaches before found awaits
            simp [nothing]
        | findById _ | delete _ | nowV7 | utcNow | publish _ => cases saved

theorem history_of_reaches (id : Uuid) :
    History front (fun request order => ∃ t ∈ p.tasks, t.args = request ∧ order ∈ saves t.past)
      (life Order.id p id) := by
  refine reached.invariant (P := fun p => History front (fun request order => ∃ t ∈ p.tasks,
    t.args = request ∧ order ∈ saves t.past) (life Order.id p id)) .nothing ?_
  intro q r action before known _ stepped
  obtain ⟨arrival, store, args, rfl, arrived, rfl⟩ |
    ⟨i, choice, t, op, next, store, reply, rfl, found, awaits, served, rfl⟩ :=
    System.step_cases stepped
  · rw [life_start]
    apply known.mono
    rintro request order ⟨t, started, called, saved⟩
    exact ⟨t, List.mem_append_left _ started, called, saved⟩
  · have goesOn : History front (fun request order =>
        ∃ t' ∈ (q.advance i t ⟨choice, op, reply⟩ store (next reply)).tasks,
          t'.args = request ∧ order ∈ saves t'.past) (life Order.id q id) := by
      apply known.mono
      intro request order ⟨u, started, called, saved⟩
      obtain ⟨u', started', same, more⟩ := Pool.exists_advance found started
      exact ⟨u', started', same.trans called, mem_saves_of_suffix more saved⟩
    have keeps := before.only_op rfl keeps_route found awaits
    rw [life_advance]
    rcases continued_cases id (life Order.id q id) keeps reply with
      ⟨order, now, here, longer⟩ | ⟨same, -⟩
    · rw [longer]
      cases now
      subst here
      have served : serve Order.id q.shared choice (.save order) = some (store, .ok ()) := served
      refine .saved t.args _ order ⟨⟨t.args, _, next (.ok ())⟩,
        List.mem_set (List.getElem?_eq_some_iff.mp found).1 _, rfl, ?_⟩ goesOn
        (effect_of_save before found awaits served)
      rw [saves_cons]
      exact List.mem_append_right _ (List.mem_singleton_self _)
    · rw [same]
      exact goesOn

/-- Each save that succeeded is in the history of its order, once. -/
theorem life_perm_saves (id : Uuid) : (life Order.id p id).Perm
    (p.tasks.flatMap fun t => (saves t.past).filter fun order => order.state.id = id) := by
  refine reached.invariant (P := fun p => (life Order.id p id).Perm
    (p.tasks.flatMap fun t => (saves t.past).filter fun order => order.state.id = id)) .rfl ?_
  intro q r action before known _ stepped
  obtain ⟨arrival, store, args, rfl, arrived, rfl⟩ |
    ⟨i, choice, t, op, next, store, reply, rfl, found, awaits, served, rfl⟩ :=
    System.step_cases stepped
  · cases arrived
    rw [life_start, Pool.start_tasks, List.flatMap_append, List.flatMap_map]
    simpa [saves] using known
  · have keeps := before.only_op rfl keeps_route found awaits
    rw [life_advance, Pool.advance_tasks]
    rcases continued_cases id (life Order.id q id) keeps reply with
      ⟨order, now, here, longer⟩ | ⟨same, elsewhere⟩
    · rw [longer]
      cases now
      refine (known.append_right _).trans (flatMap_set_perm found _ ?_).symm
      rw [saves_cons]
      simp [savedBy, here]
    · rw [same, flatMap_set_of_eq found]
      · exact known
      · rw [saves_cons, List.filter_append]
        cases saved : savedBy ⟨choice, op, reply⟩ with
        | none => simp
        | some order => simp [elsewhere order saved]

/-- What a request has published is the beginning of what it saved. -/
theorem published_prefix : ∀ t ∈ p.tasks,
    published t.past <+: (saves t.past).flatMap Aggregate.pending := by
  refine reached.forall_tasks (Q := fun _ past =>
    published past <+: (saves past).flatMap Aggregate.pending) rfl ?_ ?_
  · exact fun _ => List.prefix_rfl
  · intro q i t op next choice shared reply before found awaits _ _ known
    have allowed := allowed_of_reaches before found awaits
    rw [saves_cons, published_cons]
    cases op with
    | findById _ | delete _ | nowV7 | utcNow => simpa [savedBy, publishedBy] using known
    | save order =>
        obtain ⟨-, silent, -⟩ := allowed
        rw [silent]
        cases reply <;> exact List.nil_prefix
    | publish event =>
        cases reply with
        | error _ => simpa [savedBy, publishedBy] using known
        | ok _ =>
            obtain ⟨order, later, saved, pending⟩ := allowed
            exact ⟨later, by simp [savedBy, publishedBy, saved, pending]⟩

/-- **The saves of an order are a serial history.**  The repository holds the last of them, each is
the effect of one request on exactly what the save before it left, and they are all the saves that
succeeded: none is lost, and no request saves twice. -/
theorem orders_serializable (id : Uuid) :
    p.shared.get id = (life Order.id p id).getLast?.map stored ∧
    History front (fun request order => ∃ t ∈ p.tasks, t.args = request ∧ saves t.past = [order])
      (life Order.id p id) ∧
    (life Order.id p id).Perm
      (p.tasks.flatMap fun t => (saves t.past).filter fun order => order.state.id = id) ∧
    ∀ t ∈ p.tasks, (saves t.past).length ≤ 1 := by
  refine ⟨(orders_live reached id).held, ?_, life_perm_saves reached id, saves_alone reached⟩
  apply (history_of_reaches reached id).mono
  rintro request order ⟨t, started, called, saved⟩
  obtain ⟨only, alone⟩ := List.length_eq_one_iff.mp
    (Nat.le_antisymm (saves_alone reached t started) (List.length_pos_of_mem saved))
  rw [alone, List.mem_singleton] at saved
  exact ⟨t, started, called, saved ▸ alone⟩

/-- **The events of an order tell the order**, and the response that a route handler returns tells
what became of its request; the time limit of the router, which answers in its place, is not part of
this.  What is held is well formed and without events, an order that has left the draft status is
saved no more, and a request publishes a beginning of what it saved. -/
theorem orders_told (id : Uuid) :
    replay ((life Order.id p id).flatMap Aggregate.pending) =
      (p.shared.get id).map Aggregate.state ∧
    (∀ order, p.shared.get id = some order → WellFormed order.state ∧ order.pending = []) ∧
    (∀ (k : ℕ) order, (life Order.id p id)[k]? = some order → order.state.status ≠ .draft →
      k + 1 = (life Order.id p id).length) ∧
    ∀ t ∈ p.tasks, published t.past <+: (saves t.past).flatMap Aggregate.pending ∧
      ∀ response, t.rest = .ret response → Answered t.args t.past response := by
  have told := (history_of_reaches reached id).told
  have held := (orders_live reached id).held
  refine ⟨?_, fun order found => ?_, told.final, fun t started => ⟨?_, fun response done => ?_⟩⟩
  · rw [told.replayed, held, Option.map_map]
    rfl
  · obtain ⟨latest, last, rfl⟩ := Option.map_eq_some_iff.mp (held.symm.trans found)
    exact ⟨told.wellFormed latest (List.mem_of_getLast? last), rfl⟩
  · exact published_prefix reached t started
  · have obeys := reached.obeys rfl obeys_route t started
    rw [done] at obeys
    exact obeys

end Runs

/-- Amounts in cents, and a validator that accepts everything. -/
def inCents : Front ℕ where
  cents := some
  validateInput _ := .ok ()
  uuidText _ := "7"

/-- Two requests add an item to what both have read, so one of them is refused; the order is then
confirmed, but no handler hears of it. -/
def addedTwice : List (Action RepositoryChoice (Request ℕ)) :=
  List.flatten [[.arrive (.createOrder 3)], List.replicate 4 (.step 0 { uuid := 7 }),
    [.arrive (.addItem ⟨7, "tea", 2, 450⟩), .arrive (.addItem ⟨7, "mug", 1, 900⟩)],
    [.step 1 {}, .step 2 {}], List.replicate 4 (.step 1 { uuid := 8 }),
    List.replicate 3 (.step 2 { uuid := 9 }), [.arrive (.confirmOrder 7)],
    List.replicate 3 (.step 3 {}),
    [.step 3 { published := .error (.handlerError "OrderConfirmed" "down") },
      .arrive (.orderTotal 7), .step 4 {}]]

theorem orders_serializable_addedTwice : ∃ p : ServicePool ℕ,
    (service inCents).Reaches System.Any initial p ∧
    (life Order.id p 7).map (fun order => order.state.items.length) = [0, 1, 1] ∧
    (life Order.id p 7).Perm
      (p.tasks.flatMap fun t => (saves t.past).filter fun order => order.state.id = 7) := by
  obtain ⟨p, reached, found⟩ := System.exists_reaches_of_exec
    (f := fun p : ServicePool ℕ => decide
      ((life Order.id p 7).map (fun order => order.state.items.length) = [0, 1, 1]))
    ((service inCents).along_any initial addedTwice) (by decide +kernel)
  obtain ⟨-, -, all, -⟩ := orders_serializable reached 7
  exact ⟨p, reached, of_decide_eq_true found, all⟩

/-- The statuses of the responses so far. -/
def statuses (p : ServicePool ℕ) : List (Option ℕ) :=
  p.tasks.map fun t => t.rest.result.map Response.status

theorem orders_told_addedTwice : ∃ p : ServicePool ℕ,
    (service inCents).Reaches System.Any initial p ∧
    statuses p = [some 200, some 204, some 500, some 500, some 200] ∧
    (p.tasks.map fun t => (published t.past).length) = [1, 1, 0, 0, 0] ∧
    replay ((life Order.id p 7).flatMap Aggregate.pending) =
      some ⟨7, 3, [⟨8, "tea", ⟨2, by decide⟩, .fromCents 450⟩], .confirmed⟩ := by
  obtain ⟨p, reached, found⟩ := System.exists_reaches_of_exec
    (f := fun p : ServicePool ℕ => decide
      (statuses p = [some 200, some 204, some 500, some 500, some 200] ∧
        (p.tasks.map fun t => (published t.past).length) = [1, 1, 0, 0, 0] ∧
        (p.shared.get 7).map Aggregate.state =
          some ⟨7, 3, [⟨8, "tea", ⟨2, by decide⟩, .fromCents 450⟩], .confirmed⟩))
    ((service inCents).along_any initial addedTwice) (by decide +kernel)
  obtain ⟨answered, heard, holds⟩ := of_decide_eq_true found
  exact ⟨p, reached, answered, heard, (orders_told reached 7).1.trans holds⟩

end Orders

end Pharos

import Pharos.App.AggregateStore
import Pharos.Async.Control
import Pharos.Consume.Passage
import Pharos.Tenancy.Scopes

/-!
# The tenant travels with the message

`TenantHeader` of `pharos-app/src/enrichment.rs` stamps what a store enqueues with the tenant in whose
scope it saves, and `with_message_scope` reads the stamp where the message is handled.  Between the
two lie the outbox, the dispatcher and the broker, which leave a message as it is: a handler runs for
the tenant that saved, and without an elevation (`tenant_travels`).

The text of an id and its parser belong to the `uuid` crate and are parameters.
-/

namespace Pharos

open Async

/-! ## Headers -/

theorem lookup_insertHeader_self (key value : String) (headers : List (String × String)) :
    (insertHeader key value headers).lookup key = some value := by
  induction headers with
  | nil => simp [insertHeader]
  | cons header headers ih =>
      rw [insertHeader]
      split
      · simp
      · split
        · simp
        · next _ other =>
          rw [List.lookup_cons, beq_false_of_ne other]
          exact ih

theorem lookup_insertHeader_of_ne {key other : String} (apart : other ≠ key) (value : String)
    (headers : List (String × String)) :
    (insertHeader key value headers).lookup other = headers.lookup other := by
  induction headers with
  | nil => simp [insertHeader, List.lookup_cons, beq_false_of_ne apart]
  | cons header headers ih =>
      rw [insertHeader]
      split
      · rw [List.lookup_cons, beq_false_of_ne apart]
      · split
        · next _ same =>
          obtain ⟨name, held⟩ := header
          cases same
          simp [List.lookup_cons, beq_false_of_ne apart]
        · rw [List.lookup_cons, List.lookup_cons, ih]

/-- `TenantHeader::enrich`, under the task-locals of the save. -/
def TenantHeader.enrich (toString : Uuid → String) (l : Locals) (message : Message) : Message :=
  match l.currentTenant with
  | some tenant => message.withHeader tenantHeader (toString tenant.tenantId.value)
  | none => message

/-- An enricher that leaves the tenant of a message alone. -/
def LeavesTenant (enrich : Message → Message) : Prop :=
  ∀ message, (enrich message).headers.lookup tenantHeader = message.headers.lookup tenantHeader

theorem lookup_foldl {enrichers : List (Message → Message)}
    (others : ∀ enrich ∈ enrichers, LeavesTenant enrich) (message : Message) :
    (enrichers.foldl (fun message enrich => enrich message) message).headers.lookup tenantHeader =
      message.headers.lookup tenantHeader := by
  induction enrichers generalizing message with
  | nil => rfl
  | cons enrich enrichers ih =>
      rw [List.foldl_cons, ih (fun other listed => others other (List.mem_cons_of_mem _ listed))]
      exact others enrich List.mem_cons_self message

/-- `TraceContextHeaders::enrich`: `injected` is what the propagator writes of the trace context of the
save. -/
def TraceContextHeaders.enrich (injected : List (String × String)) (message : Message) : Message :=
  injected.foldl (fun message header => message.withHeader header.1 header.2) message

theorem leavesTenant_traceContextHeaders {injected : List (String × String)}
    (apart : ∀ header ∈ injected, header.1 ≠ tenantHeader) :
    LeavesTenant (TraceContextHeaders.enrich injected) := by
  intro message
  unfold TraceContextHeaders.enrich
  induction injected generalizing message with
  | nil => rfl
  | cons header injected ih =>
      obtain ⟨first, others⟩ := List.forall_mem_cons.mp apart
      rw [List.foldl_cons, ih others]
      exact lookup_insertHeader_of_ne first.symm header.2 message.headers

/-- The enrichers of a store as they act in one save: `TenantHeader`, and others around it. -/
structure Enrichers where
  before : List (Message → Message)
  after : List (Message → Message)
  others : ∀ enrich ∈ before ++ after, LeavesTenant enrich

/-- All of them, under the task-locals of a save. -/
def Enrichers.under (enrichers : Enrichers) (toString : Uuid → String) (l : Locals) :
    List (Message → Message) :=
  enrichers.before ++ TenantHeader.enrich toString l :: enrichers.after

section Stamp

variable {E : Type} {toString : Uuid → String} {parseStr : String → Except String Uuid}
  (events : DomainEvent E) (enrichers : Enrichers) (l : Locals)

/-- What `map_event` makes of an event carries the tenant of the save. -/
theorem tenantOf_messageOf
    (reads : ∀ tenant, l.currentTenant = some tenant →
      parseStr (toString tenant.tenantId.value) = .ok tenant.tenantId.value)
    (topic : String) (id : Uuid) (payload : List UInt8) (event : E) :
    tenantOf parseStr (DefaultAggregateStore.messageOf events (enrichers.under toString l) topic id
      payload event) = .ok l.currentTenant := by
  have before : ∀ enrich ∈ enrichers.before, LeavesTenant enrich :=
    fun enrich listed => enrichers.others enrich (List.mem_append_left _ listed)
  have after : ∀ enrich ∈ enrichers.after, LeavesTenant enrich :=
    fun enrich listed => enrichers.others enrich (List.mem_append_right _ listed)
  unfold tenantOf DefaultAggregateStore.messageOf Enrichers.under
  rw [List.foldl_append, List.foldl_cons, lookup_foldl after, TenantHeader.enrich]
  cases scope : l.currentTenant with
  | some tenant =>
      simp only [Message.withHeader, lookup_insertHeader_self, TenantContext.parse,
        reads tenant scope]
      rfl
  | none =>
      simp only [lookup_foldl before, Message.withHeader, Message.withKey, Message.new]
      rw [lookup_insertHeader_of_ne (by decide)]
      rfl

end Stamp

/-! ## What a call makes its messages of -/

namespace InMemoryUnitOfWork

section Mapped

variable {I St E : Type}

/-- A message is made of what an event was mapped to. -/
def DrawsMapped (past : List (UnitOfWorkEvent I St E)) : UnitOfWorkOp I St E → Prop
  | .nowV7 _ _ message => message ∈ (mapped past).map Prod.snd
  | _ => True

/-- No message is made. -/
def DrawsNothing : UnitOfWorkOp I St E → Prop
  | .nowV7 _ _ _ => False
  | _ => True

theorem drawsMapped_of_nothing {past : List (UnitOfWorkEvent I St E)} {op : UnitOfWorkOp I St E}
    (nothing : DrawsNothing op) : DrawsMapped past op := by
  cases op with
  | nowV7 caller now message => exact nothing.elim
  | _ => trivial

variable {idOf : St → I} {caller : ℕ}

theorem obeys_mapEvents (events : List E) (messages : List OutboxMessage)
    (past : List (UnitOfWorkEvent I St E)) :
    (mapEvents (fun event => await (.mapEvent event)) (newMessage caller) events messages).Obeys
      DrawsMapped (fun _ _ => True) past := by
  induction events generalizing messages past with
  | nil => trivial
  | cons event events ih =>
      refine ⟨trivial, fun choice reply => ?_⟩
      cases reply with
      | error error => trivial
      | ok message =>
          refine ⟨trivial, fun choice' now => ⟨?_, fun choice'' record => ih _ _⟩⟩
          simp [DrawsMapped, mapped, mappedBy]

theorem only_commitEach (messages : List OutboxMessage) :
    (commitEach messages : UnitOfWorkM I St E (Except String Unit)).Only DrawsNothing := by
  induction messages with
  | nil => trivial
  | cons message messages ih =>
      refine ⟨trivial, fun reply => ?_⟩
      cases reply with
      | error error => trivial
      | ok _ => exact ih

theorem only_transact (messages : List OutboxMessage) (aggregate : Aggregate St E) :
    (transact (store caller) (repository idOf) messages aggregate).Only DrawsNothing := by
  rw [transact_eq]
  refine ⟨trivial, fun _ => ⟨trivial, fun actual => ?_⟩⟩
  dsimp only [Program.bind]
  split
  · refine ⟨trivial, fun _ => ?_⟩
    exact (only_commitEach messages).bind fun result => ⟨trivial, fun _ => trivial⟩
  · exact ⟨trivial, fun _ => trivial⟩

theorem obeys_body [DecidableEq I] (task : UnitOfWorkTask I St E) :
    ((system idOf).body task).Obeys DrawsMapped (fun _ _ => True) [] := by
  obtain ⟨caller, call⟩ := task
  cases call with
  | saveAndEnqueue aggregate =>
      apply Program.Obeys.bind (Q := fun _ _ => True)
      · apply Program.Obeys.bind (obeys_mapEvents aggregate.pending [] [])
        intro past mapped _
        cases mapped with
        | error error => trivial
        | ok messages =>
            apply Program.Obeys.bind (Program.Obeys.of_only (only_transact messages aggregate)
              (fun _ _ => drawsMapped_of_nothing) past)
            rintro past ⟨saved, result⟩ -
            cases result with
            | error error => trivial
            | ok _ => trivial
      · exact fun _ _ _ => trivial
  | save aggregate =>
      refine ⟨trivial, fun _ reply => ?_⟩
      cases reply with
      | error error => trivial
      | ok _ => trivial
  | delete id | find id | outboxRow id => exact ⟨trivial, fun _ _ => trivial⟩

/-- The messages of the records a call made are among those it mapped its events to. -/
theorem mapped_of_records [DecidableEq I] {C : UnitOfWorkPool I St E →
      Action UnitOfWorkChoice (UnitOfWorkCall I St E) → Prop} {p : UnitOfWorkPool I St E}
    {outbox : InMemoryOutboxRepository} (reached : (system idOf).Reaches C (initial outbox) p) :
    ∀ t ∈ p.tasks, ∀ record ∈ records t.past, record.message ∈ (mapped t.past).map Prod.snd := by
  refine reached.forall_tasks (Q := fun _ past => ∀ record ∈ records past,
    record.message ∈ (mapped past).map Prod.snd) rfl (fun _ _ made => by cases made) ?_
  intro q i t op next choice shared reply before found awaits _ served known record made
  have grows : (mapped t.past).map Prod.snd ⊆
      (mapped (⟨choice, op, reply⟩ :: t.past : List (UnitOfWorkEvent I St E))).map Prod.snd := by
    apply List.map_subset
    intro pair old
    simp only [mapped, List.mem_reverse] at old ⊢
    exact List.mem_filterMap.mpr (by
      obtain ⟨event, did, same⟩ := List.mem_filterMap.mp old
      exact ⟨event, List.mem_cons_of_mem _ did, same⟩)
  cases op with
  | nowV7 caller now message =>
      have drawn : DrawsMapped t.past (.nowV7 caller now message : UnitOfWorkOp I St E) :=
        before.obeys_op rfl obeys_body found awaits
      have answered : serve idOf q.shared choice (.nowV7 caller now message) =
          some (shared, reply) := served
      rw [serve] at answered
      split at answered
      · cases answered
        rw [records_nowV7] at made
        rcases List.mem_append.mp made with old | new
        · exact grows (known record old)
        · cases List.mem_singleton.mp new
          exact grows drawn
      · cases answered
  | _ => exact grows (known record made)

end Mapped

end InMemoryUnitOfWork

/-! ## Whole runs -/

namespace Passage

open InMemoryUnitOfWork

section Runs

variable {I St E : Type} [DecidableEq I] (events : DomainEvent E) (toString : Uuid → String)
  (localsOf : ℕ → Locals)

/-- A message of a store's `map_event`, under the task-locals of a save.  Each message may have
enrichers of its own: what they write may depend on where it is made. -/
def Stamped (l : Locals) (event : E) (message : Message) : Prop :=
  ∃ (enrichers : Enrichers) (topic : String) (id : Uuid) (payload : List UInt8),
    message = DefaultAggregateStore.messageOf events (enrichers.under toString l) topic id payload
      event

/-- Every caller is a store in outbox mode: what an event is mapped to is what `map_event` makes of
it under the task-locals that the caller saves in. -/
def Stamping (p : UnitOfWorkPool I St E) : Action UnitOfWorkChoice (UnitOfWorkCall I St E) → Prop
  | .step i choice => ∀ t event message, p.tasks[i]? = some t →
      t.rest.awaited = some (.mapEvent event) → choice.mapped = .ok message →
      Stamped events toString (localsOf t.args.caller) event message
  | .arrive _ => True

/-- The callers stamp what they enqueue. -/
def PassingStamped (config : DispatchConfig) (c : PassagePools I St E)
    (action : PassageAction I St E) : Prop :=
  Passing config c action ∧
    ∀ call, action = .inl call → Stamping events toString localsOf c.1 call

variable {events toString localsOf} {idOf : St → I} {config : DispatchConfig}
  {retry : RetryPolicy} {claimLease : ChronoDuration} {staleAfter : Duration} {epoch : Time}
  {c : PassagePools I St E}

section Calls

variable (reached : (passage idOf config retry).Reaches
  (PassingStamped events toString localsOf config)
  (passageInitial claimLease staleAfter epoch) c)

include reached

theorem stamping_reaches : (system idOf).Reaches
    (fun p action => Transacts p action ∧ Stamping events toString localsOf p action)
    (initial (.new claimLease)) c.1 := by
  have front : (publication idOf config).Reaches (fun d action => Publishing config d action ∧
      ∀ call, action = .inl call → Stamping events toString localsOf d.1 call)
      (publicationInitial claimLease) (c.1, c.2.1) := by
    apply Chain.Reaches.front reached
    · intro e action side
      refine ⟨side.1, fun call same => side.2 call ?_⟩
      cases same
      rfl
    · exact fun side => ⟨side.1, nofun⟩
  exact Joint.Reaches.left front fun side => ⟨side.1.transacts, side.2 _ rfl⟩

theorem stamped_of_mapped : ∀ t ∈ c.1.tasks, ∀ pair ∈ mapped t.past,
    Stamped events toString (localsOf t.args.caller) pair.1 pair.2 := by
  refine (stamping_reaches reached).forall_tasks (Q := fun args past => ∀ pair ∈ mapped past,
    Stamped events toString (localsOf args.caller) pair.1 pair.2) rfl
    (fun _ _ maps => by cases maps) ?_
  intro q i t op next choice shared reply _ found awaits side served known pair maps
  cases op with
  | mapEvent event =>
      cases served
      cases outcome : choice.mapped with
      | error error =>
          rw [outcome] at maps
          exact known pair maps
      | ok message =>
          rw [outcome] at maps
          have split : mapped (⟨choice, .mapEvent event, .ok message⟩ :: t.past :
              List (UnitOfWorkEvent I St E)) = mapped t.past ++ [(event, message)] :=
            List.reverse_cons
          rw [split] at maps
          rcases List.mem_append.mp maps with old | new
          · exact known pair old
          · cases List.mem_singleton.mp new
            apply side.2 t event message found _ outcome
            rw [awaits]
            rfl
  | _ => exact known pair maps

/-- What a call enqueues is stamped by its store. -/
theorem stamped_of_enqueued : ∀ t ∈ c.1.tasks, ∀ message ∈ enqueued t.past, ∃ event,
    Stamped events toString (localsOf t.args.caller) event message := by
  intro t started message inserts
  have calls := (stamping_reaches reached).mono fun _ _ side => side.1
  obtain ⟨record, inserts', rfl⟩ := List.mem_map.mp inserts
  obtain ⟨aggregate, called⟩ :=
    saving_of_enqueued calls t started (List.ne_nil_of_mem inserts)
  obtain ⟨i, found⟩ := List.mem_iff_getElem?.mp started
  have made := (progress_of_reaches calls found called).ahead.subset inserts'
  obtain ⟨pair, maps, same⟩ := List.mem_map.mp (mapped_of_records calls t started record made)
  exact ⟨pair.1, same ▸ stamped_of_mapped reached t started pair maps⟩

end Calls

/-- The tenant travels with the message.  Callers save in the scopes of any tenants, or of none,
through stores that stamp what they enqueue, and one dispatcher drains their outbox, one run at a
time.  In every configuration that any interleaving of callers, dispatcher and consumers reaches:
the work that `with_message_scope` runs for the message a handler is called with runs, in the tenant
scope that the save of its event was made in, and without an elevation, whatever the consumer itself
is in the scope of. -/
theorem tenant_travels {parseStr : String → Except String Uuid}
    (reads : ∀ caller tenant, (localsOf caller).currentTenant = some tenant →
      parseStr (toString tenant.tenantId.value) = .ok tenant.tenantId.value)
    (reached : (passage idOf config retry).Reaches
      (PassingStamped events toString localsOf config)
      (passageInitial claimLease staleAfter epoch) c) :
    ∀ entry ∈ c.2.2.trace, ∀ message, Consumer.Handles message entry.event.op →
      ∃ t ∈ c.1.tasks, ∃ aggregate helper, t.args.call = .saveAndEnqueue aggregate ∧
        written t.past = [stored aggregate] ∧ message ∈ enqueued t.past ∧
        (∀ (V : Type) (work : TenantCode V) (next : Except InvalidTenantId V → TenantCode V),
          withMessageScope parseStr message work next =
            .scope helper work fun output => next (.ok output)) ∧
        ∀ l, (Helper.opened l helper).currentTenant = (localsOf t.args.caller).currentTenant ∧
          (Helper.opened l helper).currentElevation = none := by
  intro entry traced message handles
  obtain ⟨t, started, aggregate, called, wrote, inserts⟩ :=
    committed_of_handles (reached.mono fun side => side.1) entry traced message handles
  obtain ⟨event, enrichers, topic, id, payload, same⟩ :=
    stamped_of_enqueued reached t started message inserts
  have tenant : tenantOf parseStr message = .ok (localsOf t.args.caller).currentTenant := by
    rw [same]
    exact tenantOf_messageOf events enrichers _ (reads _) topic id payload event
  refine ⟨t, started, aggregate, .withMessageScope (localsOf t.args.caller).currentTenant, called,
    wrote, inserts, fun V work next => ?_, fun l => ⟨?_, ?_⟩⟩
  · rw [withMessageScope, tenant]
  · exact Helper.currentTenant_withMessageScope l _
  · exact Helper.currentElevation_withMessageScope l _

end Runs

/-! ## Two tenants -/

/-- The texts of two ids. -/
def uuidText (id : Uuid) : String :=
  if id = 10 then "00000000-0000-0000-0000-00000000000a"
  else "00000000-0000-0000-0000-00000000000b"

def parseUuid (text : String) : Except String Uuid :=
  if text = uuidText 10 then .ok 10
  else if text = uuidText 11 then .ok 11
  else .error "invalid length"

/-- The first caller saves for tenant 10, the others for tenant 11. -/
def twoTenants (caller : ℕ) : Locals where
  tenant := some (some ⟨⟨if caller = 0 then 10 else 11⟩⟩)

theorem reads_twoTenants (caller : ℕ) (tenant : TenantContext)
    (scope : (twoTenants caller).currentTenant = some tenant) :
    parseUuid (uuidText tenant.tenantId.value) = .ok tenant.tenantId.value := by
  cases scope
  by_cases first : caller = 0
  · simp [first, parseUuid]
  · simp [first, parseUuid, uuidText]

/-- Events of orders that are told by their number. -/
def placed : DomainEvent ℕ where
  eventType _ := "OrderPlaced"
  aggregateId event := if event = 7 then "1" else "2"

/-- What the propagator injects of the traces that the two callers are in. -/
def traceOf (caller : ℕ) : List (String × String) :=
  [("traceparent", if caller = 0 then "00-4bf92f3577b34da6a3ce929d0e0e4736-00f067aa0ba902b7-01"
    else "00-0af7651916cd43dd8448eb211c80319c-b7ad6b7169203331-01")]

/-- `TenantHeader`, and the trace context of the caller. -/
def traced (caller : ℕ) : Enrichers where
  before := []
  after := [TraceContextHeaders.enrich (traceOf caller)]
  others := by
    have apart : "traceparent" ≠ tenantHeader := by decide
    exact List.forall_mem_singleton.mpr
      (leavesTenant_traceContextHeaders (List.forall_mem_singleton.mpr apart))

/-- The message of an event of one of the callers. -/
def stampedOrder (caller event : ℕ) : Message :=
  DefaultAggregateStore.messageOf placed ((traced caller).under uuidText (twoTenants caller)) "orders"
    event [] event

/-- What a caller maps is such a message. -/
def mapsOrder (c : PassagePools ℕ ℕ ℕ) : PassageAction ℕ ℕ ℕ → Bool
  | .inl (.step i choice) =>
      match choice.mapped, c.1.awaits i, c.1.tasks[i]? with
      | .ok message, some (.mapEvent event), some t =>
          decide (message = stampedOrder t.args.caller event)
      | _, _, _ => true
  | _ => true

theorem stamping_of_mapsOrder {c : PassagePools ℕ ℕ ℕ} {action : PassageAction ℕ ℕ ℕ}
    (maps : mapsOrder c action = true) :
    ∀ call, action = .inl call → Stamping placed uuidText twoTenants c.1 call := by
  rintro call rfl
  cases call with
  | arrive request => trivial
  | step i choice =>
      intro t event message found awaits mapped
      simp only [mapsOrder, mapped, Pool.awaits, found, Option.bind_some, awaits,
        decide_eq_true_eq] at maps
      exact ⟨traced t.args.caller, "orders", event, [], maps⟩

/-- Two callers save an order each for their tenants, and both messages are handled. -/
def ordersOfTwoTenants : List (PassageAction ℕ ℕ ℕ) :=
  List.flatten [[.inl (.arrive (.saveAndEnqueue { state := 1, pending := [7] })),
      .inl (.arrive (.saveAndEnqueue { state := 2, pending := [8] })),
      .inl (.step 0 { mapped := .ok (stampedOrder 0 7) }),
      .inl (.step 1 { mapped := .ok (stampedOrder 1 8) }),
      .inl (.step 0 {}), .inl (.step 1 {}), .inl (.step 0 { uuid := 1 }),
      .inl (.step 1 { uuid := 2 })],
    List.replicate 5 (.inl (.step 1 {})), List.replicate 5 (.inl (.step 0 {})),
    [.inr (.inl (.arrive (.dispatch 10 0 [1, 2]))), .inr (.inl (.arrive .nextLane)),
      .inr (.inl (.arrive .nextLane))],
    List.replicate 2 (.inr (.inl (.step 0 {}))), List.replicate 2 (.inr (.inl (.step 1 {}))),
    [.inr (.inr Consumer.take), .inr (.inr Consumer.take)],
    List.replicate 2 (.inr (.inr (.step 0 {}))), List.replicate 2 (.inr (.inr (.step 1 {})))]

instance (message : Message) : DecidablePred (Consumer.Handles message)
  | .handle delivery => inferInstanceAs (Decidable (delivery.message = message))
  | .beginProcessing _ _ | .markCompleted _ _ | .markFailed _ _ _ | .decide _ _
  | .deadLetter _ _ _ | .ack _ | .nack _ _ => .isFalse id

theorem tenant_travels_ordersOfTwoTenants : ∃ c : PassagePools ℕ ℕ ℕ,
    (passage id OutboxDispatcher.twoLanes Consumer.oneAttempt).Reaches
      (PassingStamped placed uuidText twoTenants OutboxDispatcher.twoLanes)
      (passageInitial 30 10 0) c ∧
    ∀ caller ∈ [0, 1], ∃ entry ∈ c.2.2.trace,
      Consumer.Handles (stampedOrder caller (7 + caller)) entry.event.op ∧ ∃ helper,
        (∀ (work : TenantCode Unit) next,
          withMessageScope parseUuid (stampedOrder caller (7 + caller)) work next =
            .scope helper work fun output => next (.ok output)) ∧
        ∀ l, (Helper.opened l helper).currentTenant = some ⟨⟨10 + caller⟩⟩ := by
  have run : ((@passage ℕ ℕ ℕ _ id OutboxDispatcher.twoLanes Consumer.oneAttempt).exec
      (fun c action => Passing OutboxDispatcher.twoLanes c action ∧ mapsOrder c action = true)
      (passageInitial 30 10 0) ordersOfTwoTenants).any (fun c => decide (∀ caller ∈ [0, 1],
        (∃ entry ∈ c.2.2.trace,
          Consumer.Handles (stampedOrder caller (7 + caller)) entry.event.op) ∧
        ∀ t ∈ c.1.tasks, stampedOrder caller (7 + caller) ∈ enqueued t.past →
          t.args.caller = caller)) = true := by
    decide +kernel
  obtain ⟨c, maps, found⟩ := Chain.exists_reaches_of_exec run
  have reached : (passage id OutboxDispatcher.twoLanes Consumer.oneAttempt).Reaches
      (PassingStamped placed uuidText twoTenants OutboxDispatcher.twoLanes)
      (passageInitial 30 10 0) c :=
    maps.mono fun side => ⟨side.1, stamping_of_mapsOrder side.2⟩
  refine ⟨c, reached, fun caller listed => ?_⟩
  obtain ⟨⟨entry, traced, handles⟩, own⟩ := of_decide_eq_true found caller listed
  obtain ⟨t, started, aggregate, helper, -, -, inserts, opens, seen⟩ :=
    tenant_travels reads_twoTenants reached entry traced _ handles
  refine ⟨entry, traced, handles, helper, opens Unit, fun l => ?_⟩
  rw [(seen l).1, own t started inserts]
  rcases List.mem_pair.mp listed with rfl | rfl
  · rfl
  · rfl

end Passage

end Pharos

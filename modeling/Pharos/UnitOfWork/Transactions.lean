import Pharos.UnitOfWork.Faults

/-!
# Transactions of any shape

A caller of `TransactionalStore` and `TransactionalRepository` may compose any number of
`save_in_tx` and `insert_outbox_in_tx` calls in one transaction, look at each result, and commit
or drop the handle.  The handle of the in-memory unit of work has room for one aggregate: each
save replaces what an earlier one staged.
-/

namespace Pharos

open Async

/-- What a caller does with an open transaction, from here on. -/
inductive TxScript (St E : Type) where
  | commit
  | drop
  | save (aggregate : Aggregate St E) (next : Except RepositoryError Unit → TxScript St E)
  | insertOutbox (message : OutboxMessage) (next : TxScript St E)

/-- How a transaction ended. -/
inductive TxEnd where
  | committed (result : Except String Unit)
  | dropped
  deriving DecidableEq

/-- One call inside a transaction. -/
inductive TxCall (St E : Type) where
  | save (aggregate : Aggregate St E)
  | insertOutbox (message : OutboxMessage)

/-- The script that makes the calls one after the other and commits, or drops the handle as soon as
a call fails. -/
def TxScript.ofCalls {St E : Type} : List (TxCall St E) → TxScript St E
  | [] => .commit
  | .save aggregate :: calls => .save aggregate fun result =>
      match result with
      | .ok () => .ofCalls calls
      | .error _ => .drop
  | .insertOutbox message :: calls => .insertOutbox message (.ofCalls calls)

/-- The aggregate a call saves. -/
def TxCall.saved {St E : Type} : TxCall St E → Option (Aggregate St E)
  | .save aggregate => some aggregate
  | .insertOutbox _ => none

/-- The message a call inserts. -/
def TxCall.inserted {St E : Type} : TxCall St E → Option OutboxMessage
  | .save _ => none
  | .insertOutbox message => some message

namespace InMemoryUnitOfWork

section Programs

variable {I St E : Type} (idOf : St → I) (caller : ℕ)

/-- The calls of an open transaction. -/
def runScript : TxScript St E → InMemoryTx St E → UnitOfWorkM I St E TxEnd
  | .commit, tx => do
      let result ← commit tx
      pure (.committed result)
  | .drop, tx => do
      (store caller).dropTx tx
      pure .dropped
  | .save aggregate next, tx => do
      let ((tx, _), result) ← saveInTx idOf tx aggregate
      runScript (next result) tx
  | .insertOutbox message next, tx => do
      let (tx, _) ← insertOutboxInTx tx message
      runScript next tx

/-- A whole transaction. -/
def transaction (script : TxScript St E) : UnitOfWorkM I St E TxEnd := do
  match ← begin caller with
  | .error _ => pure .dropped
  | .ok tx => runScript idOf caller script tx

end Programs

section Staging

variable {I St E : Type} [DecidableEq I] {idOf : St → I} {conditions : Conditions E}
  {u u' : UnitOfWorkShared I St E} {tx : InMemoryTx St E} {calls : List (TxCall St E)}

/-- The aggregates that are saved. -/
def savesOf (calls : List (TxCall St E)) : List (Aggregate St E) := calls.filterMap TxCall.saved

/-- The messages that are inserted. -/
def insertsOf (calls : List (TxCall St E)) : List OutboxMessage := calls.filterMap TxCall.inserted

/-- A transaction that made all the calls and committed persisted every aggregate and every message:
each aggregate is found as it was saved, one version on, and each message is in the outbox, to which
they were added in staging order. -/
def PersistsAll (idOf : St → I) (conditions : Conditions E) (calls : List (TxCall St E))
    (u : UnitOfWorkShared I St E) : Prop :=
  ∀ u', (transaction idOf 0 (.ofCalls calls)).run (servedBy idOf conditions) u =
      some (u', .committed (.ok ())) →
    (∀ aggregate ∈ savesOf calls, (findById (idOf aggregate.state)).run (servedBy idOf conditions) u' =
      some (u', .ok (some (stored aggregate)))) ∧
    u'.outbox = (insertsOf calls).foldl InMemoryOutboxRepository.write u.outbox ∧
    ∀ message ∈ insertsOf calls, u'.outbox.get message.id = some message

/-- The stored version is the one each aggregate was loaded at. -/
def AllCurrent (idOf : St → I) (calls : List (TxCall St E)) (u : UnitOfWorkShared I St E) : Prop :=
  ∀ aggregate ∈ savesOf calls, storedVersion u (idOf aggregate.state) = aggregate.version

/-- The handle after the calls. -/
def stagedBy (calls : List (TxCall St E)) (tx : InMemoryTx St E) : InMemoryTx St E where
  guard := tx.guard
  stagedAggregate := ((savesOf calls).getLast?.map stored).or tx.stagedAggregate
  stagedOutbox := tx.stagedOutbox ++ insertsOf calls

/-- The aggregate map after a commit. -/
def applied (idOf : St → I) (staged : Option (Aggregate St E))
    (aggregates : DashMap I (Aggregate St E)) : DashMap I (Aggregate St E) :=
  match staged with
  | some aggregate => aggregates.put (idOf aggregate.state) aggregate
  | none => aggregates

theorem stagedBy_save (aggregate : Aggregate St E) (calls : List (TxCall St E)) :
    stagedBy (.save aggregate :: calls) tx =
      stagedBy calls { tx with stagedAggregate := some (stored aggregate) } := by
  have saves : savesOf (.save aggregate :: calls) = aggregate :: savesOf calls := rfl
  simp only [stagedBy, saves, List.getLast?_cons]
  cases (savesOf calls).getLast? with
  | none => rfl
  | some last => rfl

theorem stagedBy_insertOutbox (message : OutboxMessage) (calls : List (TxCall St E)) :
    stagedBy (.insertOutbox message :: calls) tx =
      stagedBy calls { tx with stagedOutbox := tx.stagedOutbox ++ [message] } := by
  have inserts : insertsOf (.insertOutbox message :: calls) = message :: insertsOf calls := rfl
  simp only [stagedBy, inserts, List.append_assoc, List.singleton_append]
  rfl

theorem run_commit_of_staged (tx : InMemoryTx St E) :
    (commit tx).run (servedBy idOf conditions) u =
      some ({ u with
        aggregates := applied idOf tx.stagedAggregate u.aggregates
        outbox := tx.stagedOutbox.foldl InMemoryOutboxRepository.write u.outbox
        holder := none }, .ok ()) := by
  cases staged : tx.stagedAggregate with
  | some aggregate => exact run_commit staged
  | none =>
      unfold commit
      rw [staged]
      exact Program.run_bind_of_run (run_commitEach tx.stagedOutbox)

theorem allCurrent_save {aggregate : Aggregate St E} :
    AllCurrent idOf (.save aggregate :: calls) u ↔
      storedVersion u (idOf aggregate.state) = aggregate.version ∧ AllCurrent idOf calls u :=
  List.forall_mem_cons

theorem run_saveInTx_of_current (conditions : Conditions E) (tx : InMemoryTx St E)
    {aggregate : Aggregate St E}
    (current : storedVersion u (idOf aggregate.state) = aggregate.version) :
    (saveInTx idOf tx aggregate).run (servedBy idOf conditions) u =
      some (u, ({ tx with stagedAggregate := some (stored aggregate) },
        aggregate.setVersion (aggregate.version + 1)), .ok ()) :=
  (run_saveInTx tx aggregate).trans (if_pos current)

theorem run_saveInTx_of_stale (conditions : Conditions E) (tx : InMemoryTx St E)
    {aggregate : Aggregate St E}
    (stale : storedVersion u (idOf aggregate.state) ≠ aggregate.version) :
    (saveInTx idOf tx aggregate).run (servedBy idOf conditions) u =
      some (u, (tx, aggregate), .error (.concurrencyConflict aggregate.version
        ((u.aggregates.get (idOf aggregate.state)).map Aggregate.version))) :=
  (run_saveInTx tx aggregate).trans (if_neg stale)

/-- The calls of a transaction all succeed, and what the last save staged is committed, if every
aggregate is current. -/
theorem run_ofCalls (current : AllCurrent idOf calls u) :
    (runScript idOf 0 (.ofCalls calls) tx).run (servedBy idOf conditions) u =
      some ({ u with
        aggregates := applied idOf (stagedBy calls tx).stagedAggregate u.aggregates
        outbox := (stagedBy calls tx).stagedOutbox.foldl InMemoryOutboxRepository.write u.outbox
        holder := none }, .committed (.ok ())) := by
  induction calls generalizing tx with
  | nil =>
      have same : stagedBy [] tx = tx := by
        simp [stagedBy, savesOf, insertsOf]
      rw [same, TxScript.ofCalls, runScript, Program.run_bind_of_run (run_commit_of_staged tx)]
      rfl
  | cons call calls ih =>
      cases call with
      | save aggregate =>
          obtain ⟨first, rest⟩ := allCurrent_save.mp current
          rw [TxScript.ofCalls, runScript,
            Program.run_bind_of_run (run_saveInTx_of_current conditions tx first), stagedBy_save]
          exact ih rest
      | insertOutbox message =>
          rw [stagedBy_insertOutbox]
          exact ih current

/-- A call fails and the handle is dropped if some aggregate is stale. -/
theorem run_ofCalls_of_stale (stale : ¬ AllCurrent idOf calls u) :
    (runScript idOf 0 (.ofCalls calls) tx).run (servedBy idOf conditions) u =
      some ({ u with holder := none }, .dropped) := by
  induction calls generalizing tx with
  | nil => exact (stale nofun).elim
  | cons call calls ih =>
      cases call with
      | save aggregate =>
          rw [TxScript.ofCalls, runScript]
          by_cases first : storedVersion u (idOf aggregate.state) = aggregate.version
          · rw [Program.run_bind_of_run (run_saveInTx_of_current conditions tx first)]
            exact ih fun rest => stale (allCurrent_save.mpr ⟨first, rest⟩)
          · rw [Program.run_bind_of_run (run_saveInTx_of_stale conditions tx first)]
            rfl
      | insertOutbox message => exact ih stale

/-- The unit of work after a transaction made the calls and committed. -/
def afterCalls (idOf : St → I) (calls : List (TxCall St E)) (u : UnitOfWorkShared I St E) :
    UnitOfWorkShared I St E :=
  { u with
    aggregates := applied idOf ((savesOf calls).getLast?.map stored) u.aggregates
    outbox := (insertsOf calls).foldl InMemoryOutboxRepository.write u.outbox
    holder := none }

theorem run_transaction_of_current (conditions : Conditions E) (free : u.holder = none)
    (current : AllCurrent idOf calls u) :
    (transaction idOf 0 (.ofCalls calls)).run (servedBy idOf conditions) u =
      some (afterCalls idOf calls u, .committed (.ok ())) := by
  have still : AllCurrent idOf calls { u with holder := some 0 } := current
  rw [transaction, Program.run_bind_of_run (run_begin free)]
  refine (run_ofCalls still).trans ?_
  simp only [stagedBy, Option.or_none, List.nil_append]
  rfl

theorem run_transaction_of_stale (conditions : Conditions E) (free : u.holder = none)
    (stale : ¬ AllCurrent idOf calls u) :
    ∃ u', (transaction idOf 0 (.ofCalls calls)).run (servedBy idOf conditions) u =
      some (u', .dropped) := by
  have still : ¬ AllCurrent idOf calls { u with holder := some 0 } := stale
  rw [transaction, Program.run_bind_of_run (run_begin free)]
  exact ⟨_, run_ofCalls_of_stale still⟩

theorem run_findById (id : I) :
    (findById id).run (servedBy idOf conditions) u = some (u, .ok (u.aggregates.get id)) := rfl

/-- The messages that were staged are in the outbox. -/
theorem get_afterCalls (ids : ((insertsOf calls).map OutboxMessage.id).Nodup) :
    ∀ message ∈ insertsOf calls, (afterCalls idOf calls u).outbox.get message.id = some message :=
  fun _ member => InMemoryOutboxRepository.get_foldl_write (insertsOf calls) ids member

/-- An aggregate that is not the last one saved is not written. -/
theorem not_persisted {aggregate last : Aggregate St E}
    (current : storedVersion u (idOf aggregate.state) = aggregate.version)
    (final : (savesOf calls).getLast? = some last)
    (other : idOf last.state ≠ idOf aggregate.state) :
    (afterCalls idOf calls u).aggregates.get (idOf aggregate.state) ≠ some (stored aggregate) := by
  intro found
  have unwritten : (afterCalls idOf calls u).aggregates.get (idOf aggregate.state) =
      u.aggregates.get (idOf aggregate.state) := by
    simp only [afterCalls, final]
    exact DashMap.get_put_of_ne (Ne.symm other)
  rw [unwritten] at found
  have advanced : storedVersion u (idOf aggregate.state) = aggregate.version + 1 := by
    rw [storedVersion, found]
    rfl
  omega

/-- A transaction that saves several distinct aggregates loses all but the last. -/
theorem not_persistsAll_of_many (conditions : Conditions E) (free : u.holder = none)
    (distinct : ((savesOf calls).map fun aggregate => idOf aggregate.state).Nodup)
    (current : AllCurrent idOf calls u) (many : 1 < (savesOf calls).length) :
    ¬ PersistsAll idOf conditions calls u := by
  intro persists
  obtain ⟨found, -⟩ := persists _ (run_transaction_of_current conditions free current)
  cases saves : savesOf calls with
  | nil =>
      rw [saves] at many
      exact absurd many (Nat.not_lt_zero 1)
  | cons first rest =>
      have more : rest ≠ [] := by
        rintro rfl
        rw [saves] at many
        exact absurd many (Nat.lt_irrefl 1)
      have member : first ∈ savesOf calls := by
        rw [saves]
        exact List.mem_cons_self
      have final : (savesOf calls).getLast? = some (rest.getLast more) := by
        rw [saves, List.getLast?_eq_some_getLast (List.cons_ne_nil _ _), List.getLast_cons more]
      rw [saves, List.map_cons, List.nodup_cons] at distinct
      have other : idOf (rest.getLast more).state ≠ idOf first.state := fun same =>
        distinct.1 (same ▸ List.mem_map_of_mem (List.getLast_mem more))
      have read := found first member
      rw [run_findById] at read
      injection read with read
      injection read with _ read
      injection read with read
      exact not_persisted (current first member) final other read

/-- A transaction that saves at most one aggregate persists it and every message. -/
theorem persistsAll_of_one (conditions : Conditions E) (free : u.holder = none)
    (ids : ((insertsOf calls).map OutboxMessage.id).Nodup) (current : AllCurrent idOf calls u)
    (one : (savesOf calls).length ≤ 1) : PersistsAll idOf conditions calls u := by
  intro u' committed
  cases (run_transaction_of_current conditions free current).symm.trans committed
  refine ⟨fun aggregate member => ?_, rfl, get_afterCalls ids⟩
  have only : savesOf calls = [aggregate] := by
    obtain ⟨alone, same⟩ := List.length_eq_one_iff.mp
      (Nat.le_antisymm one (List.length_pos_of_mem member))
    rw [same, List.mem_singleton] at member
    rw [same, member]
  have written : (afterCalls idOf calls u).aggregates.get (idOf aggregate.state) =
      some (stored aggregate) := by
    simp only [afterCalls, only]
    exact DashMap.get_put_self _ _ _
  rw [run_findById, written]

/-- For every sequence of saves of distinct aggregates and of inserts: a transaction persists all of
it if and only if it saves at most one aggregate, or some aggregate is stale and the transaction
never commits. -/
theorem persistsAll_iff (conditions : Conditions E) (free : u.holder = none)
    (distinct : ((savesOf calls).map fun aggregate => idOf aggregate.state).Nodup)
    (ids : ((insertsOf calls).map OutboxMessage.id).Nodup) :
    PersistsAll idOf conditions calls u ↔
      (savesOf calls).length ≤ 1 ∨ ¬ AllCurrent idOf calls u := by
  by_cases current : AllCurrent idOf calls u
  · constructor
    · intro persists
      refine .inl (Nat.le_of_not_lt fun many => ?_)
      exact not_persistsAll_of_many conditions free distinct current many persists
    · rintro (one | stale)
      · exact persistsAll_of_one conditions free ids current one
      · exact (stale current).elim
  · obtain ⟨u', ran⟩ := run_transaction_of_stale conditions free current
    refine ⟨fun _ => .inr current, fun _ after committed => ?_⟩
    cases ran.symm.trans committed

end Staging

/-- A new order with its number. -/
def orderNumber (number : ℕ) : Aggregate ℕ ℕ where
  state := number

/-- A message of an order. -/
def orderMessage : OutboxMessage := .new 1 0 { messageId := 1, topic := "orders" }

/-- An empty unit of work. -/
def emptyUnit : UnitOfWorkShared ℕ ℕ ℕ where
  aggregates := ∅
  outbox := .new 10

theorem persistsAll_iff_oneOrder :
    PersistsAll id {} [.insertOutbox orderMessage, .save (orderNumber 1)] emptyUnit :=
  (persistsAll_iff {} rfl (by decide) (by decide)).mpr (.inl (by decide))

/-- Two new orders are saved in one transaction: every call and the commit report success, and the
first order is not there. -/
theorem first_order_lost :
    ((transaction id 0 (.ofCalls [.save (orderNumber 1), .save (orderNumber 2)])).run
      (servedBy id ({} : Conditions ℕ)) emptyUnit).map
        (fun out => (out.2, out.1.aggregates.get 1, out.1.aggregates.get 2)) =
      some (.committed (.ok ()), none, some { state := 2, version := 1 }) ∧
    ¬ PersistsAll id {} [.save (orderNumber 1), .save (orderNumber 2)] emptyUnit := by
  have ran : ((transaction id 0 (.ofCalls [.save (orderNumber 1), .save (orderNumber 2)])).run
      (servedBy id ({} : Conditions ℕ)) emptyUnit).map
        (fun out => (out.2, out.1.aggregates.get 1, out.1.aggregates.get 2)) =
      some (.committed (.ok ()), none, some { state := 2, version := 1 }) := by
    decide +kernel
  refine ⟨ran, ?_⟩
  refine not_persistsAll_of_many {} rfl (by decide) ?_ (by decide)
  show ∀ aggregate ∈ [orderNumber 1, orderNumber 2], storedVersion emptyUnit aggregate.state =
    aggregate.version
  decide

end InMemoryUnitOfWork

end Pharos

import Pharos.Async.Outline
import Pharos.Memory.UnitOfWork

/-!
# What a transaction does, step by step

A proof outline for `save_and_enqueue_in` over the in-memory unit of work.  `records`, `inserted`
and `written` read off the past of a call which outbox messages it made, which of them it
inserted, and what it wrote into the aggregate map; `Progress` relates them to the shared state at
every point of the call.  Two things keep the other callers away: an aggregate is only written
under the mutex, and an outbox id is only inserted by the caller it was drawn for.
-/

namespace Pharos

namespace InMemoryUnitOfWork

open Async

section Past

variable {I St E : Type}

/-- The message that was made. -/
def madeBy : UnitOfWorkEvent I St E → Option OutboxMessage
  | ⟨_, .nowV7 _ _ _, record⟩ => some record
  | _ => none

/-- The message that was inserted into the outbox. -/
def insertedBy : UnitOfWorkEvent I St E → Option OutboxMessage
  | ⟨_, .insertOutbox message, _⟩ => some message
  | _ => none

/-- The aggregate that was written. -/
def writtenBy : UnitOfWorkEvent I St E → Option (Aggregate St E)
  | ⟨_, .insertAggregate aggregate, _⟩ => some aggregate
  | _ => none

/-- The event that was mapped, and what it was mapped to. -/
def mappedBy : UnitOfWorkEvent I St E → Option (E × Message)
  | ⟨_, .mapEvent event, .ok message⟩ => some (event, message)
  | _ => none

/-- The messages a call made, in order. -/
def records (past : List (UnitOfWorkEvent I St E)) : List OutboxMessage :=
  (past.filterMap madeBy).reverse

/-- The messages a call inserted into the outbox, in order. -/
def inserted (past : List (UnitOfWorkEvent I St E)) : List OutboxMessage :=
  (past.filterMap insertedBy).reverse

/-- The aggregates a call wrote, in order. -/
def written (past : List (UnitOfWorkEvent I St E)) : List (Aggregate St E) :=
  (past.filterMap writtenBy).reverse

/-- The events a call mapped and their messages, in order. -/
def mapped (past : List (UnitOfWorkEvent I St E)) : List (E × Message) :=
  (past.filterMap mappedBy).reverse

variable {past : List (UnitOfWorkEvent I St E)} {choice : UnitOfWorkChoice}

theorem records_nowV7 {caller : ℕ} {now : Time} {message : Message} {record : OutboxMessage} :
    records ((⟨choice, .nowV7 caller now message, record⟩ : UnitOfWorkEvent I St E) :: past) =
      records past ++ [record] :=
  List.reverse_cons

theorem inserted_insertOutbox {message : OutboxMessage} {reply : Except OutboxError Unit} :
    inserted ((⟨choice, .insertOutbox message, reply⟩ : UnitOfWorkEvent I St E) :: past) =
      inserted past ++ [message] :=
  List.reverse_cons

theorem written_insertAggregate {aggregate : Aggregate St E} :
    written ((⟨choice, .insertAggregate aggregate, ()⟩ : UnitOfWorkEvent I St E) :: past) =
      written past ++ [aggregate] :=
  List.reverse_cons

theorem written_of_quiet {event : UnitOfWorkEvent I St E} (quiet : writtenBy event = none) :
    written (event :: past) = written past := by
  simp only [written, List.filterMap_cons, quiet]

/-- The aggregate as a commit stores it. -/
def stored (aggregate : Aggregate St E) : Aggregate St E :=
  { aggregate with version := aggregate.version + 1, pending := [] }

end Past

/-! ## The transaction as a sequence of operations -/

section Programs

variable {I St E : Type} {caller : ℕ}

theorem insertEach_eq (tx : InMemoryTx St E) (messages : List OutboxMessage) :
    insertEach (S := unitOfWorkSignature I St E) (store caller) tx messages =
      pure ({ tx with stagedOutbox := tx.stagedOutbox ++ messages }, .ok ()) := by
  induction messages generalizing tx with
  | nil =>
      rw [List.append_nil]
      rfl
  | cons message messages ih =>
      have staged : insertEach (S := unitOfWorkSignature I St E) (store caller) tx
          (message :: messages) = insertEach (S := unitOfWorkSignature I St E) (store caller)
            { tx with stagedOutbox := tx.stagedOutbox ++ [message] } messages := rfl
      rw [staged, ih, List.append_assoc]
      rfl

/-- The commit of an aggregate and its messages. -/
def committing (messages : List OutboxMessage) (aggregate : Aggregate St E) :
    UnitOfWorkM I St E (Aggregate St E × Except SaveAndEnqueueError Unit) := do
  await (.insertAggregate (stored aggregate))
  let result ← commitEach messages
  await .unlock
  pure (aggregate.setVersion (aggregate.version + 1), result.mapError SaveAndEnqueueError.store)

/-- The commit of a transaction that staged an aggregate. -/
theorem commit_eq {tx : InMemoryTx St E} {aggregate : Aggregate St E}
    (staged : tx.stagedAggregate = some (stored aggregate)) :
    commit (I := I) tx = await (.insertAggregate (stored aggregate)) >>= fun _ =>
      commitEach tx.stagedOutbox >>= fun result => await .unlock >>= fun _ => pure result := by
  unfold commit
  rw [staged]

/-- What follows a version check that was passed. -/
theorem stage_eq {aggregate : Aggregate St E} {messages : List OutboxMessage}
    {next : InMemoryTx St E × Except String Unit →
      UnitOfWorkM I St E (Aggregate St E × Except SaveAndEnqueueError Unit)}
    (commits : ∀ tx, next (tx, .ok ()) = commit tx >>= fun result =>
      pure (aggregate.setVersion (aggregate.version + 1), result.mapError SaveAndEnqueueError.store)) :
    insertEach (store caller) ⟨caller, some (stored aggregate), []⟩ messages >>= next =
      committing messages aggregate := by
  rw [insertEach_eq]
  show next (⟨caller, some (stored aggregate), messages⟩, .ok ()) = _
  rw [commits, commit_eq rfl]
  refine congrArg (Program.await (S := unitOfWorkSignature I St E)
    (.insertAggregate (stored aggregate))) (funext fun _ => ?_)
  exact Program.bind_assoc (commitEach messages) _ _

/-- The mutex, the version check, and the commit or the drop of the transaction. -/
theorem transact_eq (idOf : St → I) (messages : List OutboxMessage) (aggregate : Aggregate St E) :
    transact (store caller) (repository idOf) messages aggregate =
      await (.lock caller) >>= fun _ => await (.version (idOf aggregate.state)) >>= fun actual =>
        if actual.getD 0 = aggregate.version then committing messages aggregate
        else await .unlock >>= fun _ =>
          pure (aggregate, .error (.repository (.concurrencyConflict aggregate.version actual))) := by
  refine congrArg (Program.await (S := unitOfWorkSignature I St E) (.lock caller))
    (funext fun _ => ?_)
  refine congrArg (Program.await (S := unitOfWorkSignature I St E) (.version (idOf aggregate.state)))
    (funext fun actual => ?_)
  cases actual with
  | some actual =>
      by_cases same : actual = aggregate.version
      · have passed : (some actual).getD 0 = aggregate.version := same
        show Program.bind (if actual ≠ aggregate.version then _ else _) _ =
          if (some actual).getD 0 = aggregate.version then _ else _
        rw [if_neg (not_not.mpr same), if_pos passed]
        show insertEach (store caller) ⟨caller, some (stored aggregate), []⟩ messages >>= _ = _
        refine stage_eq fun tx => congrArg (commit tx >>= ·) (funext fun result => ?_)
        cases result with
        | error error => rfl
        | ok _ => rfl
      · have refused : (some actual).getD 0 ≠ aggregate.version := same
        show Program.bind (if actual ≠ aggregate.version then _ else _) _ =
          if (some actual).getD 0 = aggregate.version then _ else _
        rw [if_pos same, if_neg refused]
        rfl
  | none =>
      by_cases new : aggregate.version = 0
      · have passed : (none : Option ℕ).getD 0 = aggregate.version := new.symm
        show Program.bind (if aggregate.version ≠ 0 then _ else _) _ =
          if (none : Option ℕ).getD 0 = aggregate.version then _ else _
        rw [if_neg (not_not.mpr new), if_pos passed]
        show insertEach (store caller) ⟨caller, some (stored aggregate), []⟩ messages >>= _ = _
        refine stage_eq fun tx => congrArg (commit tx >>= ·) (funext fun result => ?_)
        cases result with
        | error error => rfl
        | ok _ => rfl
      · have refused : (none : Option ℕ).getD 0 ≠ aggregate.version := Ne.symm new
        show Program.bind (if aggregate.version ≠ 0 then _ else _) _ =
          if (none : Option ℕ).getD 0 = aggregate.version then _ else _
        rw [if_pos new, if_neg refused]
        rfl

end Programs

section Outline

variable {I St E : Type} [DecidableEq I] (idOf : St → I)

/-- The stored version of an id; an aggregate that is not stored has version 0. -/
def storedVersion (s : UnitOfWorkShared I St E) (id : I) : ℕ :=
  ((s.aggregates.get id).map Aggregate.version).getD 0

/-- Every aggregate is stored drained and under its id, and no id was drawn twice. -/
structure Inv (s : UnitOfWorkShared I St E) : Prop where
  keyed : ∀ id aggregate, s.aggregates.get id = some aggregate →
    idOf aggregate.state = id ∧ aggregate.pending = []
  distinct : (s.drawn.map Prod.fst).Nodup

/-- What a caller relies on: nobody else inserts its outbox ids, writes an aggregate while it holds
the mutex, or takes a version back. -/
structure Rely (task : UnitOfWorkTask I St E) (s s' : UnitOfWorkShared I St E) : Prop where
  drawn : s.drawn ⊆ s'.drawn
  outbox : ∀ id, (id, task.caller) ∈ s.drawn → s'.outbox.get id = s.outbox.get id
  held : s.holder = some task.caller →
    s'.holder = some task.caller ∧ s'.aggregates = s.aggregates
  version : ∀ id, storedVersion s id ≤ storedVersion s' id

/-- Where a call stands with the messages it made and inserted and the aggregate it wrote. -/
structure Progress (caller : ℕ) (aggregate : Aggregate St E) (made inserted : List OutboxMessage)
    (written : List (Aggregate St E)) (s : UnitOfWorkShared I St E) : Prop where
  drew : ∀ record ∈ made, (record.id, caller) ∈ s.drawn
  distinct : (made.map OutboxMessage.id).Nodup
  ahead : inserted <+: made
  present : ∀ record ∈ inserted, s.outbox.get record.id = some record
  absent : ∀ record ∈ made, record ∉ inserted → s.outbox.get record.id = none
  write : written = [] ∧ inserted = [] ∨
    written = [stored aggregate] ∧ aggregate.version < storedVersion s (idOf aggregate.state)

/-- What holds in particular when a call performs an operation. -/
def Guards (caller : ℕ) (aggregate : Aggregate St E) (past : List (UnitOfWorkEvent I St E))
    (s : UnitOfWorkShared I St E) : UnitOfWorkOp I St E → Prop
  | .mapEvent _ | .utcNow | .version _ => written past = []
  | .nowV7 number _ _ | .lock number => number = caller ∧ written past = []
  | .insertAggregate written => s.holder = some caller ∧ written = stored aggregate ∧
      storedVersion s (idOf aggregate.state) = aggregate.version
  | .insertOutbox message => s.holder = some caller ∧ (message.id, caller) ∈ s.drawn ∧
      s.outbox.get message.id = none
  | .unlock => s.holder = some caller ∧ (written past ≠ [] → inserted past = records past)
  | .save _ | .remove _ | .find _ | .outboxRow _ => False

/-- What holds when a task performs an operation. -/
def Pre (task : UnitOfWorkTask I St E) (past : List (UnitOfWorkEvent I St E))
    (s : UnitOfWorkShared I St E) (op : UnitOfWorkOp I St E) : Prop :=
  match task.call with
  | .saveAndEnqueue aggregate =>
      Progress idOf task.caller aggregate (records past) (inserted past) (written past) s ∧
        Guards idOf task.caller aggregate past s op
  | .find id => op = .find id
  | .outboxRow id => op = .outboxRow id
  | .save _ | .delete _ => False

/-- What a call did when it returned. -/
inductive Ended (aggregate : Aggregate St E) (past : List (UnitOfWorkEvent I St E)) :
    UnitOfWorkReturn St E → Prop where
  | failed {error : SaveAndEnqueueError} (nothing : written past = []) :
      Ended aggregate past (.enqueued aggregate (.error error))
  | committed (wrote : written past = [stored aggregate]) (all : inserted past = records past)
      (events : (mapped past).map Prod.fst = aggregate.pending)
      (messages : (records past).map OutboxMessage.message = (mapped past).map Prod.snd) :
      Ended aggregate past (.enqueued (stored aggregate) (.ok ()))

/-- What holds when a task has returned. -/
def Post (task : UnitOfWorkTask I St E) (past : List (UnitOfWorkEvent I St E))
    (s : UnitOfWorkShared I St E) (value : UnitOfWorkReturn St E) : Prop :=
  match task.call with
  | .saveAndEnqueue aggregate =>
      Progress idOf task.caller aggregate (records past) (inserted past) (written past) s ∧
        Ended aggregate past value
  | _ => True

/-- The outline of the calls. -/
def outline : Outline (unitOfWorkSignature I St E) (UnitOfWorkShared I St E) UnitOfWorkChoice
    (UnitOfWorkTask I St E) where
  inv := Inv idOf
  rely := Rely
  allowed _ := True
  pre := Pre idOf

variable {idOf} {task other : UnitOfWorkTask I St E} {past : List (UnitOfWorkEvent I St E)}
  {s s' s'' : UnitOfWorkShared I St E} {choice : UnitOfWorkChoice} {op : UnitOfWorkOp I St E}
  {reply : op.Reply} {caller : ℕ} {aggregate : Aggregate St E} {made done : List OutboxMessage}
  {wrote : List (Aggregate St E)}

theorem Rely.refl (task : UnitOfWorkTask I St E) (s : UnitOfWorkShared I St E) : Rely task s s where
  drawn _ member := member
  outbox _ _ := rfl
  held holds := ⟨holds, rfl⟩
  version _ := le_refl _

theorem Rely.trans (first : Rely task s s') (second : Rely task s' s'') : Rely task s s'' where
  drawn _ member := second.drawn (first.drawn member)
  outbox id member := (second.outbox id (first.drawn member)).trans (first.outbox id member)
  held holds := by
    obtain ⟨still, same⟩ := first.held holds
    obtain ⟨held, same'⟩ := second.held still
    exact ⟨held, same'.trans same⟩
  version id := (first.version id).trans (second.version id)

/-- Progress is not undone by others. -/
theorem Progress.mono (progress : Progress idOf task.caller aggregate made done wrote s)
    (moved : Rely task s s') : Progress idOf task.caller aggregate made done wrote s' where
  drew record member := moved.drawn (progress.drew record member)
  distinct := progress.distinct
  ahead := progress.ahead
  present record member := by
    rw [moved.outbox record.id (progress.drew record (progress.ahead.subset member))]
    exact progress.present record member
  absent record member missing := by
    rw [moved.outbox record.id (progress.drew record member)]
    exact progress.absent record member missing
  write := progress.write.imp id fun both => ⟨both.1, both.2.trans_le (moved.version _)⟩

/-! ## What a call may do to the others -/

/-- The versions after a write. -/
theorem storedVersion_put (key id : I) (written : Aggregate St E) :
    storedVersion { s with aggregates := s.aggregates.put key written } id =
      if id = key then written.version else storedVersion s id := by
  unfold storedVersion
  rw [DashMap.get_put]
  split
  · rfl
  · rfl

/-- The guarantee of a call that saves and enqueues. -/
theorem guarantee_of_guards (inv : Inv idOf s) (guards : Guards idOf caller aggregate past s op)
    (served : serve idOf s choice op = some (s', reply)) :
    Inv idOf s' ∧
      ∀ other : UnitOfWorkTask I St E, other.caller ≠ caller → Rely other s s' := by
  cases op with
  | mapEvent _ | utcNow | version _ =>
      cases served
      exact ⟨inv, fun other _ => .refl other s⟩
  | nowV7 number now message =>
      have answered : serve idOf s choice (.nowV7 number now message) = some (s', reply) := served
      rw [serve] at answered
      split at answered
      · next undrawn =>
        cases answered
        refine ⟨⟨inv.keyed, ?_⟩, fun other _ => ?_⟩
        · rw [List.map_cons, List.nodup_cons]
          exact ⟨undrawn.1, inv.distinct⟩
        · exact ⟨List.subset_cons_self _ _, fun _ _ => rfl, fun held => ⟨held, rfl⟩,
            fun _ => le_refl _⟩
      · cases answered
  | lock number =>
      have answered : serve idOf s choice (.lock number) = some (s', reply) := served
      rw [serve] at answered
      split at answered
      · next free =>
        cases answered
        refine ⟨⟨inv.keyed, inv.distinct⟩, fun other _ => ⟨List.Subset.refl _, fun _ _ => rfl, ?_,
          fun _ => le_refl _⟩⟩
        intro held
        rw [free] at held
        cases held
      · cases answered
  | unlock =>
      cases served
      refine ⟨⟨inv.keyed, inv.distinct⟩, fun other distinct => ⟨List.Subset.refl _, fun _ _ => rfl,
        fun held => ?_, fun _ => le_refl _⟩⟩
      exact absurd (Option.some.inj (held.symm.trans guards.1)) distinct
  | insertAggregate written =>
      cases served
      obtain ⟨holds, rfl, before⟩ := guards
      refine ⟨⟨fun id found at_ => ?_, inv.distinct⟩, fun other distinct => ⟨List.Subset.refl _,
        fun _ _ => rfl, fun held => ?_, fun id => ?_⟩⟩
      · rw [DashMap.get_put] at at_
        split at at_
        · next here =>
          cases at_
          exact ⟨here.symm, rfl⟩
        · exact inv.keyed id found at_
      · exact absurd (Option.some.inj (held.symm.trans holds)) distinct
      · rw [storedVersion_put]
        split
        · next here =>
          have same : idOf (stored aggregate).state = idOf aggregate.state := rfl
          rw [here, same, before]
          exact Nat.le_succ _
        · exact le_refl _
  | insertOutbox message =>
      cases served
      obtain ⟨-, own, -⟩ := guards
      refine ⟨⟨inv.keyed, inv.distinct⟩, fun other distinct => ⟨List.Subset.refl _,
        fun id drew => ?_, fun held => ⟨held, rfl⟩, fun _ => le_refl _⟩⟩
      refine InMemoryOutboxRepository.get_write_of_ne ?_
      rintro rfl
      -- an id is drawn for one caller only
      have same := List.inj_on_of_nodup_map inv.distinct drew own rfl
      exact distinct (congrArg Prod.snd same)
  | save _ | remove _ | find _ | outboxRow _ => exact guards.elim

/-- The guarantee of any call. -/
theorem guarantee (inv : Inv idOf s) (pre : Pre idOf task past s op)
    (served : serve idOf s choice op = some (s', reply)) :
    Inv idOf s' ∧ ∀ other, other.caller ≠ task.caller → Rely other s s' := by
  unfold Pre at pre
  split at pre
  · exact guarantee_of_guards inv pre.2 served
  · subst pre
    cases served
    exact ⟨inv, fun other _ => .refl other s⟩
  · subst pre
    cases served
    exact ⟨inv, fun other _ => .refl other s⟩
  · exact pre.elim
  · exact pre.elim

/-! ## What a call does to its own progress -/

theorem Progress.of_same (progress : Progress idOf caller aggregate made done wrote s)
    (drawn : s'.drawn = s.drawn) (outbox : s'.outbox = s.outbox)
    (aggregates : s'.aggregates = s.aggregates) :
    Progress idOf caller aggregate made done wrote s' where
  drew := drawn ▸ progress.drew
  distinct := progress.distinct
  ahead := progress.ahead
  present := outbox ▸ progress.present
  absent := outbox ▸ progress.absent
  write := by
    unfold storedVersion
    rw [aggregates]
    exact progress.write

/-- A message is made under an id that was not drawn before. -/
theorem Progress.make (progress : Progress idOf caller aggregate made done wrote s) {id : Uuid}
    (undrawn : Undrawn s id) {record : OutboxMessage} (here : record.id = id) :
    Progress idOf caller aggregate (made ++ [record]) done wrote
      { s with drawn := (id, caller) :: s.drawn } where
  drew other member := by
    rcases List.mem_append.mp member with before | now
    · exact List.mem_cons_of_mem _ (progress.drew other before)
    · rw [List.mem_singleton.mp now, here]
      exact List.mem_cons_self
  distinct := by
    rw [List.map_append, List.nodup_append]
    refine ⟨progress.distinct, List.nodup_singleton _, ?_⟩
    intro old before new now same
    obtain ⟨other, member, rfl⟩ := List.mem_map.mp before
    have drew := List.mem_map_of_mem (f := Prod.fst) (progress.drew other member)
    rw [List.map_singleton, List.mem_singleton] at now
    refine undrawn.1 ?_
    rw [← here, ← now, ← same]
    exact drew
  ahead := progress.ahead.trans (List.prefix_append _ _)
  present := progress.present
  absent other member missing := by
    rcases List.mem_append.mp member with before | now
    · exact progress.absent other before missing
    · rw [List.mem_singleton.mp now, here]
      exact undrawn.2
  write := progress.write

/-- The aggregate is written over the version it expects. -/
theorem Progress.put (progress : Progress idOf caller aggregate made done wrote s) :
    Progress idOf caller aggregate made done [stored aggregate]
      { s with aggregates := s.aggregates.put (idOf aggregate.state) (stored aggregate) } where
  drew := progress.drew
  distinct := progress.distinct
  ahead := progress.ahead
  present := progress.present
  absent := progress.absent
  write := by
    refine .inr ⟨rfl, ?_⟩
    rw [storedVersion_put, if_pos rfl]
    exact Nat.lt_succ_self _

/-- The next message is inserted. -/
theorem Progress.insert (progress : Progress idOf caller aggregate made done [stored aggregate] s)
    {message : OutboxMessage} {rest : List OutboxMessage} (next : made = done ++ message :: rest) :
    Progress idOf caller aggregate made (done ++ [message]) [stored aggregate]
      { s with outbox := s.outbox.write message } := by
  have listed : message ∈ made := by
    rw [next]
    exact List.mem_append_right _ List.mem_cons_self
  have apart : ∀ record ∈ made, record ≠ message → record.id ≠ message.id := by
    intro record member distinct same
    exact distinct (List.inj_on_of_nodup_map progress.distinct member listed same)
  refine ⟨progress.drew, progress.distinct, ⟨rest, by rw [next, List.append_assoc]; rfl⟩, ?_, ?_, ?_⟩
  · intro record member
    by_cases same : record = message
    · rw [same]
      exact InMemoryOutboxRepository.get_write_self message
    · have before : record ∈ done := by
        rcases List.mem_append.mp member with before | now
        · exact before
        · exact (same (List.mem_singleton.mp now)).elim
      have kept := apart record (progress.ahead.subset before) same
      rw [InMemoryOutboxRepository.get_write_of_ne kept]
      exact progress.present record before
  · intro record member missing
    have distinct : record ≠ message := by
      rintro rfl
      exact missing (List.mem_append_right _ (List.mem_singleton_self _))
    rw [InMemoryOutboxRepository.get_write_of_ne (apart record member distinct)]
    exact progress.absent record member fun before => missing (List.mem_append_left _ before)
  · rcases progress.write with ⟨nothing, -⟩ | ⟨-, version⟩
    · cases nothing
    · exact .inr ⟨rfl, version⟩

/-! ## The outline along the program -/

/-- A call that has made messages and written nothing yet. -/
structure Building (idOf : St → I) (task : UnitOfWorkTask I St E) (aggregate : Aggregate St E)
    (messages : List OutboxMessage) (events : List E) (past : List (UnitOfWorkEvent I St E))
    (s : UnitOfWorkShared I St E) : Prop where
  progress : Progress idOf task.caller aggregate (records past) (inserted past) (written past) s
  nothing : written past = []
  made : records past = messages
  events : (mapped past).map Prod.fst = events
  messages : (records past).map OutboxMessage.message = (mapped past).map Prod.snd

/-- A call that has written its aggregate and has messages left to insert. -/
structure Committing (idOf : St → I) (task : UnitOfWorkTask I St E) (aggregate : Aggregate St E)
    (remaining : List OutboxMessage) (past : List (UnitOfWorkEvent I St E))
    (s : UnitOfWorkShared I St E) : Prop where
  progress : Progress idOf task.caller aggregate (records past) (inserted past) (written past) s
  holds : s.holder = some task.caller
  wrote : written past = [stored aggregate]
  rest : records past = inserted past ++ remaining
  events : (mapped past).map Prod.fst = aggregate.pending
  messages : (records past).map OutboxMessage.message = (mapped past).map Prod.snd

/-- One round of the loop that makes the messages. -/
theorem Building.make {messages : List OutboxMessage} {front : List E} {event : E}
    {message : Message} {choice₁ choice₂ choice₃ : UnitOfWorkChoice} {now : Time}
    (building : Building idOf task aggregate messages front past s)
    (progress : Progress idOf task.caller aggregate (records past) (inserted past) (written past) s')
    (undrawn : Undrawn s' choice₃.uuid) :
    Building idOf task aggregate (messages ++ [.new choice₃.uuid now message]) (front ++ [event])
      (⟨choice₃, .nowV7 task.caller now message, .new choice₃.uuid now message⟩ ::
        ⟨choice₂, .utcNow, now⟩ :: ⟨choice₁, .mapEvent event, .ok message⟩ :: past)
      { s' with drawn := (choice₃.uuid, task.caller) :: s'.drawn } := by
  have maps : mapped ((⟨choice₃, .nowV7 task.caller now message, .new choice₃.uuid now message⟩ :
      UnitOfWorkEvent I St E) :: ⟨choice₂, .utcNow, now⟩ ::
        ⟨choice₁, .mapEvent event, .ok message⟩ :: past) = mapped past ++ [(event, message)] :=
    List.reverse_cons
  have makes : records ((⟨choice₃, .nowV7 task.caller now message, .new choice₃.uuid now message⟩ :
      UnitOfWorkEvent I St E) :: ⟨choice₂, .utcNow, now⟩ ::
        ⟨choice₁, .mapEvent event, .ok message⟩ :: past) =
      records past ++ [.new choice₃.uuid now message] :=
    records_nowV7
  refine ⟨?_, building.nothing, ?_, ?_, ?_⟩
  · rw [makes]
    exact progress.make undrawn rfl
  · rw [makes, building.made]
  · rw [maps, List.map_append, building.events]
    rfl
  · rw [makes, maps, List.map_append, List.map_append, building.messages]
    rfl

section Safe

variable {α : Type} {post : List (UnitOfWorkEvent I St E) → UnitOfWorkShared I St E → α → Prop}
  (called : task.call = .saveAndEnqueue aggregate)

include called

/-- One operation of a call, and the rest of it. -/
theorem safe_op {next : op.Reply → UnitOfWorkM I St E α}
    (progress : Progress idOf task.caller aggregate (records past) (inserted past) (written past) s)
    (guards : ∀ s', Rely task s s' → Guards idOf task.caller aggregate past s' op)
    (rest : ∀ s' choice s'' reply, Rely task s s' →
      Progress idOf task.caller aggregate (records past) (inserted past) (written past) s' →
      serve idOf s' choice op = some (s'', reply) →
      Safe (serve idOf) (outline idOf) task post (next reply) (⟨choice, op, reply⟩ :: past) s'') :
    Safe (serve idOf) (outline idOf) task post (await op >>= next) past s := by
  refine Safe.call (S := unitOfWorkSignature I St E) (fun s' _ moved => ?_)
    fun s' choice s'' reply _ moved _ served =>
      rest s' choice s'' reply moved (progress.mono moved) served
  show Pre idOf task past s' op
  unfold Pre
  rw [called]
  exact ⟨progress.mono moved, guards s' moved⟩

/-- The loop that makes the messages. -/
theorem safe_mapEvents (back : List E) {front : List E} {messages : List OutboxMessage}
    (building : Building idOf task aggregate messages front past s)
    (pending : aggregate.pending = front ++ back) :
    Safe (serve idOf) (outline idOf) task (fun past s result =>
      match result with
      | .error _ => Progress idOf task.caller aggregate (records past) (inserted past) (written past) s ∧
          written past = []
      | .ok messages => Building idOf task aggregate messages aggregate.pending past s)
      (mapEvents (fun event => await (.mapEvent event)) (newMessage task.caller) back messages)
      past s := by
  induction back generalizing front messages past s with
  | nil =>
      rw [List.append_nil] at pending
      rw [pending]
      exact building
  | cons event back ih =>
      refine safe_op called building.progress (fun _ _ => building.nothing) ?_
      intro s₁ choice s₁' reply _ progress served
      cases served
      cases answer : choice.mapped with
      | error error => exact ⟨progress, building.nothing⟩
      | ok message =>
          show Safe _ _ _ _ (await .utcNow >>= fun now => await (.nowV7 task.caller now message) >>=
            fun record => mapEvents _ _ back (messages ++ [record])) _ _
          refine safe_op called progress (fun _ _ => building.nothing) ?_
          intro s₂ choice₂ s₂' now _ progress served
          cases served
          refine safe_op called progress (fun _ _ => ⟨rfl, building.nothing⟩) ?_
          intro s₃ choice₃ s₃' record _ progress served
          have answered : serve idOf s₃ choice₃ (.nowV7 task.caller choice₂.now message) =
            some (s₃', record) := served
          rw [serve] at answered
          split at answered
          · next undrawn =>
            cases answered
            refine ih (building.make progress undrawn) ?_
            rw [pending, List.append_assoc]
            rfl
          · cases answered

/-- The inserts of a commit. -/
theorem safe_commitEach {remaining : List OutboxMessage}
    (committing : Committing idOf task aggregate remaining past s) :
    Safe (serve idOf) (outline idOf) task (fun past s result =>
      result = .ok () ∧ Committing idOf task aggregate [] past s) (commitEach remaining) past s := by
  induction remaining generalizing past s with
  | nil => exact ⟨rfl, committing⟩
  | cons message remaining ih =>
      have listed : message ∈ records past := by
        rw [committing.rest]
        exact List.mem_append_right _ List.mem_cons_self
      have missing : message ∉ inserted past := by
        have ids := committing.progress.distinct
        rw [committing.rest, List.map_append, List.nodup_append] at ids
        intro before
        exact ids.2.2 message.id (List.mem_map_of_mem before) message.id
          (List.mem_map_of_mem List.mem_cons_self) rfl
      refine safe_op called committing.progress (fun s' moved => ?_) ?_
      · have progress := committing.progress.mono moved
        exact ⟨(moved.held committing.holds).1, progress.drew message listed,
          progress.absent message listed missing⟩
      · intro s₁ choice s₁' reply moved progress served
        cases served
        refine ih ⟨?_, (moved.held committing.holds).1, committing.wrote, ?_, committing.events,
          committing.messages⟩
        · rw [inserted_insertOutbox]
          rw [committing.wrote] at progress
          have next := progress.insert committing.rest
          rw [← committing.wrote] at next
          exact next
        · rw [inserted_insertOutbox, List.append_assoc]
          exact committing.rest

/-- What one transaction returns. -/
inductive Transacted (idOf : St → I) (task : UnitOfWorkTask I St E) (aggregate : Aggregate St E)
    (past : List (UnitOfWorkEvent I St E)) (s : UnitOfWorkShared I St E) :
    Aggregate St E × Except SaveAndEnqueueError Unit → Prop where
  | refused {error : SaveAndEnqueueError}
      (progress : Progress idOf task.caller aggregate (records past) (inserted past) (written past) s)
      (nothing : written past = []) : Transacted idOf task aggregate past s (aggregate, .error error)
  | committed
      (progress : Progress idOf task.caller aggregate (records past) (inserted past) (written past) s)
      (wrote : written past = [stored aggregate]) (all : inserted past = records past)
      (events : (mapped past).map Prod.fst = aggregate.pending)
      (messages : (records past).map OutboxMessage.message = (mapped past).map Prod.snd) :
      Transacted idOf task aggregate past s (aggregate.setVersion (aggregate.version + 1), .ok ())

/-- The commit, under the mutex and over the expected version. -/
theorem safe_committing {messages : List OutboxMessage}
    (building : Building idOf task aggregate messages aggregate.pending past s)
    (holds : s.holder = some task.caller)
    (version : storedVersion s (idOf aggregate.state) = aggregate.version) :
    Safe (serve idOf) (outline idOf) task (Transacted idOf task aggregate)
      (committing messages aggregate) past s := by
  have fresh : inserted past = [] := by
    rcases building.progress.write with ⟨-, none⟩ | ⟨wrote, -⟩
    · exact none
    · rw [building.nothing] at wrote
      cases wrote
  refine safe_op called building.progress (fun s' moved => ?_) ?_
  · obtain ⟨held, same⟩ := moved.held holds
    refine ⟨held, rfl, ?_⟩
    unfold storedVersion at version ⊢
    rw [same]
    exact version
  · intro s₁ choice s₁' _ moved progress served
    cases served
    have writes : written ((⟨choice, .insertAggregate (stored aggregate), ()⟩ :
        UnitOfWorkEvent I St E) :: past) = [stored aggregate] := by
      rw [written_insertAggregate, building.nothing]
      rfl
    have none : inserted ((⟨choice, .insertAggregate (stored aggregate), ()⟩ :
      UnitOfWorkEvent I St E) :: past) = [] := fresh
    have begun : Committing idOf task aggregate messages
        (⟨choice, .insertAggregate (stored aggregate), ()⟩ :: past)
        { s₁ with aggregates := s₁.aggregates.put (idOf aggregate.state) (stored aggregate) } := by
      refine ⟨?_, (moved.held holds).1, writes, ?_, building.events, building.messages⟩
      · rw [writes]
        exact progress.put
      · rw [none]
        exact building.made
    refine (safe_commitEach called begun).bind ?_
    rintro past' s' result ⟨rfl, committed⟩
    have all : inserted past' = records past' := by
      rw [committed.rest, List.append_nil]
    refine safe_op called committed.progress (fun s'' moved => ?_) ?_
    · exact ⟨(moved.held committed.holds).1, fun _ => all⟩
    · intro s₂ choice₂ s₂' _ _ progress served
      cases served
      exact .committed (progress.of_same rfl rfl rfl) committed.wrote all committed.events
        committed.messages

theorem safe_transact {messages : List OutboxMessage}
    (building : Building idOf task aggregate messages aggregate.pending past s) :
    Safe (serve idOf) (outline idOf) task (Transacted idOf task aggregate)
      (transact (store task.caller) (repository idOf) messages aggregate) past s := by
  rw [transact_eq]
  refine safe_op called building.progress (fun _ _ => ⟨rfl, building.nothing⟩) ?_
  intro s₁ choice₁ s₁' _ _ progress served
  have answered : serve idOf s₁ choice₁ (.lock task.caller) = some (s₁', ()) := served
  rw [serve] at answered
  split at answered
  · cases answered
    refine safe_op called (progress.of_same rfl rfl rfl) (fun _ _ => building.nothing) ?_
    intro s₂ choice₂ s₂' actual moved progress served
    cases served
    have holds : s₂.holder = some task.caller := (moved.held rfl).1
    split
    · next same =>
      exact safe_committing called ⟨progress, building.nothing, building.made, building.events,
        building.messages⟩ holds same
    · refine safe_op called progress (fun s' moved => ?_) ?_
      · refine ⟨(moved.held holds).1, fun wrote => (wrote building.nothing).elim⟩
      · intro s₃ choice₃ s₃' _ _ progress served
        cases served
        exact .refused (progress.of_same rfl rfl rfl) building.nothing
  · cases answered

/-- The whole call. -/
theorem safe_saveAndEnqueue
    (start : Progress idOf task.caller aggregate [] [] [] s) :
    Safe (serve idOf) (outline idOf) task (fun past s out =>
      Progress idOf task.caller aggregate (records past) (inserted past) (written past) s ∧
        Ended aggregate past (.enqueued out.1 out.2))
      (saveAndEnqueue idOf task.caller aggregate) [] s := by
  have building : Building idOf task aggregate [] [] [] s := ⟨start, rfl, rfl, rfl, rfl⟩
  refine (safe_mapEvents called aggregate.pending building rfl).bind ?_
  rintro past' s' (error | messages) built
  · exact ⟨built.1, .failed built.2⟩
  · refine (safe_transact called built).bind ?_
    rintro past'' s'' out transacted
    cases transacted with
    | refused progress nothing => exact ⟨progress, .failed nothing⟩
    | committed progress wrote all events messages =>
        exact ⟨progress, .committed wrote all events messages⟩

end Safe

theorem safe_body (s : UnitOfWorkShared I St E) (task : UnitOfWorkTask I St E)
    (kept : (∀ aggregate, task.call ≠ .save aggregate) ∧ ∀ id, task.call ≠ .delete id) :
    Safe (serve idOf) (outline idOf) task (Post idOf task) (body idOf task) [] s := by
  cases called : task.call with
  | saveAndEnqueue aggregate =>
      have start : Progress idOf task.caller aggregate [] [] [] s := by
        refine ⟨?_, List.nodup_nil, List.prefix_refl _, ?_, ?_, .inl ⟨rfl, rfl⟩⟩
        · intro record made
          exact (List.not_mem_nil made).elim
        · intro record inserted
          exact (List.not_mem_nil inserted).elim
        · intro record made
          exact (List.not_mem_nil made).elim
      have unfolded : body idOf task = saveAndEnqueue idOf task.caller aggregate >>= fun out =>
          pure (.enqueued out.1 out.2) := by
        unfold body
        rw [called]
      rw [unfolded]
      refine (safe_saveAndEnqueue called start).bind fun past s out ended => ?_
      show Post idOf task past s _
      unfold Post
      rw [called]
      exact ended
  | save aggregate => exact (kept.1 aggregate called).elim
  | delete id => exact (kept.2 id called).elim
  | find id =>
      have unfolded : body idOf task = await (.find id) >>= fun found => pure (.found (.ok found)) := by
        unfold body
        rw [called]
        rfl
      rw [unfolded]
      refine Safe.call (S := unitOfWorkSignature I St E) (fun s' _ _ => ?_) fun _ _ _ _ _ _ _ _ => ?_
      · show Pre idOf task [] s' (.find id)
        unfold Pre
        rw [called]
      · show Post idOf task _ _ _
        unfold Post
        rw [called]
        trivial
  | outboxRow id =>
      have unfolded : body idOf task = await (.outboxRow id) >>= fun found => pure (.row found) := by
        unfold body
        rw [called]
      rw [unfolded]
      refine Safe.call (S := unitOfWorkSignature I St E) (fun s' _ _ => ?_) fun _ _ _ _ _ _ _ _ => ?_
      · show Pre idOf task [] s' (.outboxRow id)
        unfold Pre
        rw [called]
      · show Post idOf task _ _ _
        unfold Post
        rw [called]
        trivial

/-! ## Whole runs -/

/-- Callers save in transactions and read; nobody uses the plain save or delete. -/
def Transacts (_ : UnitOfWorkPool I St E) :
    Action UnitOfWorkChoice (UnitOfWorkCall I St E) → Prop
  | .arrive (.save _) | .arrive (.delete _) => False
  | _ => True

instance (p : UnitOfWorkPool I St E) : DecidablePred (Transacts p)
  | .arrive (.save _) | .arrive (.delete _) => .isFalse id
  | .arrive (.saveAndEnqueue _) | .arrive (.find _) | .arrive (.outboxRow _) => .isTrue trivial
  | .step _ _ => .isTrue trivial

theorem callers_of_serve (served : serve idOf s choice op = some (s', reply)) :
    s'.callers = s.callers := by
  cases op with
  | nowV7 number now message =>
      have answered : serve idOf s choice (.nowV7 number now message) = some (s', reply) := served
      rw [serve] at answered
      split at answered
      · cases answered
        rfl
      · cases answered
  | lock number =>
      have answered : serve idOf s choice (.lock number) = some (s', reply) := served
      rw [serve] at answered
      split at answered
      · cases answered
        rfl
      · cases answered
  | _ =>
      cases served
      rfl

variable {C : UnitOfWorkPool I St E → Action UnitOfWorkChoice (UnitOfWorkCall I St E) → Prop}
  {outbox : InMemoryOutboxRepository} {p : UnitOfWorkPool I St E} {i : ℕ} {t : RunningCall I St E}

/-- Callers are numbered as they arrive. -/
def Counted (p : UnitOfWorkPool I St E) : Prop :=
  p.shared.callers = p.tasks.length ∧
    ∀ (i : ℕ) (t : RunningCall I St E), p.tasks[i]? = some t → t.args.caller = i

theorem caller_of_reaches (reached : (system idOf).Reaches C (initial outbox) p) : Counted p := by
  refine reached.numbered UnitOfWorkShared.callers UnitOfWorkTask.caller rfl rfl ?_ callers_of_serve
  intro s call s' args arrived
  cases arrived
  exact ⟨_, rfl, rfl, rfl⟩

theorem outline_of_reaches (reached : (system idOf).Reaches Transacts (initial outbox) p) :
    (outline idOf).Holds (system idOf) (Post idOf) p := by
  refine Outline.holds_of_reaches (fun _ _ => .refl _ _) (fun first second => first.trans second)
    ?_ ?_ ?_ reached
  · exact ⟨⟨nofun, List.nodup_nil⟩, fun i t found => by cases found⟩
  · intro q i t op next choice s' reply before holds _ found awaits served
    obtain ⟨inv, moved⟩ := guarantee holds.inv (holds.pre found awaits) served
    refine ⟨trivial, inv, fun j u distinct at_j => moved u.args fun same => distinct ?_⟩
    rw [← (caller_of_reaches before).2 j u at_j, ← (caller_of_reaches before).2 i t found]
    exact same
  · intro q call s' args _ holds side arrived
    cases arrived
    refine ⟨⟨holds.inv.keyed, holds.inv.distinct⟩, fun u _ => ?_, fun task among => ?_⟩
    · exact ⟨List.Subset.refl _, fun _ _ => rfl, fun held => ⟨held, rfl⟩, fun _ => le_refl _⟩
    · cases List.mem_singleton.mp among
      refine safe_body _ _ ⟨?_, ?_⟩
      · rintro aggregate rfl
        exact side
      · rintro id rfl
        exact side

section Facts

variable (reached : (system idOf).Reaches Transacts (initial outbox) p)
  (found : p.tasks[i]? = some t) (called : t.args.call = .saveAndEnqueue aggregate)

include reached found called

theorem pre_of_reaches {next : op.Reply → UnitOfWorkM I St E (UnitOfWorkReturn St E)}
    (awaits : t.rest = .await op next) :
    Progress idOf t.args.caller aggregate (records t.past) (inserted t.past) (written t.past) p.shared ∧
      Guards idOf t.args.caller aggregate t.past p.shared op := by
  have pre : Pre idOf t.args t.past p.shared op := (outline_of_reaches reached).pre found awaits
  unfold Pre at pre
  rw [called] at pre
  exact pre

theorem post_of_reaches {value : UnitOfWorkReturn St E} (returned : t.rest = .ret value) :
    Progress idOf t.args.caller aggregate (records t.past) (inserted t.past) (written t.past) p.shared ∧
      Ended aggregate t.past value := by
  obtain ⟨s, moved, post⟩ := (outline_of_reaches reached).post_of_ret found returned
  unfold Post at post
  rw [called] at post
  exact ⟨post.1.mono moved, post.2⟩

theorem progress_of_reaches : Progress idOf t.args.caller aggregate (records t.past)
    (inserted t.past) (written t.past) p.shared := by
  cases rest : t.rest with
  | ret value => exact (post_of_reaches reached found called rest).1
  | await op next => exact (pre_of_reaches reached found called rest).1

end Facts

end Outline

end InMemoryUnitOfWork

end Pharos

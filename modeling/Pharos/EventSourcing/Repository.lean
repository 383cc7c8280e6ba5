import Pharos.App.Service
import Pharos.Async.Outline
import Pharos.Memory.EventStore

/-!
# Event-sourced repositories

`pharos-es/src/lib.rs`: `EventSourcedRepository` rehydrates an aggregate by replaying its whole
stream, `SnapshottingEventSourcedRepository` from the latest snapshot on.  Both append the
pending events at the expected version; the second then writes a snapshot when the version
crossed a multiple of `snapshot_every`.  Snapshots that cannot be loaded or saved are passed
over.
-/

namespace Pharos

open Async

/-- What a client of the event store, the snapshot store and the event bus awaits. -/
inductive StreamOp (I St E : Type) where
  | load (id : I)
  | append (id : I) (expected : ℕ) (events : List E)
  | deleteStream (id : I)
  | loadSnapshot (id : I)
  | saveSnapshot (id : I) (snapshot : Snapshot (Aggregate St E))
  | publish (event : E)

/-- The replies of the operations. -/
abbrev StreamOp.Reply {I St E : Type} : StreamOp I St E → Type
  | .load _ => Except String (List (StoredEvent E))
  | .append _ _ _ => Except RepositoryError Unit
  | .deleteStream _ => Except String Unit
  | .loadSnapshot _ => Except String (Option (Snapshot (Aggregate St E)))
  | .saveSnapshot _ _ => Except String Unit
  | .publish _ => Except EventBusError Unit

abbrev streamSignature (I St E : Type) : Signature where
  Op := StreamOp I St E
  Reply := StreamOp.Reply

section Programs

variable {I St E : Type}

abbrev StreamM (I St E α : Type) := Program (streamSignature I St E) α

/-- One awaited operation. -/
abbrev StreamM.await (op : StreamOp I St E) : StreamM I St E op.Reply :=
  Program.call (S := streamSignature I St E) op

/-- `EventStore::load_after`, as the trait provides it. -/
def loadAfter (id : I) (after : ℕ) : StreamM I St E (Except String (List (StoredEvent E))) := do
  match ← StreamM.await (.load id) with
  | .error error => pure (.error error)
  | .ok events => pure (.ok (events.filter fun stored => decide (after < stored.sequence)))

variable (kind : EventSourced I St E)

/-- The replay loop: the aggregate and the sequence of the last event. -/
def replay (start : Aggregate St E × ℕ) (events : List (StoredEvent E)) : Aggregate St E × ℕ :=
  events.foldl (fun reached stored =>
    ({ reached.1 with state := kind.apply reached.1.state stored.event }, stored.sequence)) start

namespace EventSourcedRepository

/-- `EventSourcedRepository::find_by_id`. -/
def findById (id : I) : StreamM I St E (Except String (Option (Aggregate St E))) := do
  match ← StreamM.await (.load id) with
  | .error error => pure (.error error)
  | .ok events =>
    if events.isEmpty then pure (.ok none)
    else
      let (aggregate, version) := replay kind ({ state := kind.default }, 0) events
      pure (.ok (some (aggregate.setVersion version)))

/-- `EventSourcedRepository::save`. -/
def save (aggregate : Aggregate St E) :
    StreamM I St E (Aggregate St E × Except RepositoryError Unit) := do
  let expected := aggregate.version
  let (aggregate, events) := aggregate.drainEvents
  match ← StreamM.await (.append (kind.id aggregate.state) expected events) with
  | .error error => pure (aggregate, .error error)
  | .ok () => pure (aggregate.setVersion (expected + events.length), .ok ())

/-- `EventSourcedRepository::delete`. -/
def delete (id : I) : StreamM I St E (Except String Unit) := StreamM.await (.deleteStream id)

end EventSourcedRepository

/-- A snapshotting repository, with its interval. -/
structure SnapshottingEventSourcedRepository where
  snapshotEvery : ℕ
  positive : 0 < snapshotEvery
  deriving DecidableEq

namespace SnapshottingEventSourcedRepository

/-- `SnapshottingEventSourcedRepository::new`: values below 1 are clamped to 1. -/
def new (snapshotEvery : ℕ) : SnapshottingEventSourcedRepository where
  snapshotEvery := max snapshotEvery 1
  positive := le_max_right snapshotEvery 1

/-- `SnapshottingEventSourcedRepository::find_by_id`. -/
def findById (id : I) : StreamM I St E (Except String (Option (Aggregate St E))) := do
  let snapshot := match ← StreamM.await (.loadSnapshot id) with
    | .ok snapshot => snapshot
    | .error _ => none
  let (aggregate, version) := match snapshot with
    | some snapshot => (snapshot.state, snapshot.version)
    | none => ({ state := kind.default }, 0)
  match ← loadAfter id version with
  | .error error => pure (.error error)
  | .ok events =>
    if version = 0 ∧ events.isEmpty then pure (.ok none)
    else
      let (aggregate, version) := replay kind (aggregate, version) events
      pure (.ok (some (aggregate.setVersion version)))

/-- `SnapshottingEventSourcedRepository::save`. -/
def save (repository : SnapshottingEventSourcedRepository) (aggregate : Aggregate St E) :
    StreamM I St E (Aggregate St E × Except RepositoryError Unit) := do
  let expected := aggregate.version
  let (aggregate, events) := aggregate.drainEvents
  match ← StreamM.await (.append (kind.id aggregate.state) expected events) with
  | .error error => pure (aggregate, .error error)
  | .ok () =>
    let newVersion := expected + events.length
    let aggregate := aggregate.setVersion newVersion
    -- best effort: the events are already durable
    if expected / repository.snapshotEvery < newVersion / repository.snapshotEvery then
      let _ ← StreamM.await (.saveSnapshot (kind.id aggregate.state) ⟨aggregate, newVersion⟩)
      pure (aggregate, .ok ())
    else pure (aggregate, .ok ())

/-- `SnapshottingEventSourcedRepository::delete`. -/
def delete (id : I) : StreamM I St E (Except String Unit) := StreamM.await (.deleteStream id)

end SnapshottingEventSourcedRepository

end Programs

/-! ## Runs over shared state -/

/-- A snapshot store: whatever it does, it returns only snapshots that were saved under the id.
Saves may fail, take effect late or write over newer snapshots, and loads may fail. -/
structure SnapshotStore (I A β χ : Type) where
  empty : β
  load : β → χ → I → β × Except String (Option (Snapshot A))
  save : β → χ → I → Snapshot A → β × Except String Unit
  /-- the snapshot was saved under the id and may still be returned -/
  Holds : β → I → Snapshot A → Prop
  holds_empty : ∀ id snapshot, ¬ Holds empty id snapshot
  load_holds : ∀ {s s' choice id snapshot}, load s choice id = (s', .ok (some snapshot)) →
    Holds s id snapshot
  holds_of_load : ∀ {s choice id other snapshot}, Holds (load s choice id).1 other snapshot →
    Holds s other snapshot
  holds_of_save : ∀ {s choice id saved other snapshot},
    Holds (save s choice id saved).1 other snapshot →
      Holds s other snapshot ∨ (other = id ∧ snapshot = saved)

/-- A call of a client: a method of one of the repositories, or of the event store itself. -/
inductive StreamCall (I St E : Type) where
  | save (aggregate : Aggregate St E)
  | find (id : I)
  | delete (id : I)
  | snapshotSave (repository : SnapshottingEventSourcedRepository) (aggregate : Aggregate St E)
  | snapshotFind (id : I)
  | append (id : I) (expected : ℕ) (events : List E)
  | loadAfter (id : I) (after : ℕ)
  deriving DecidableEq

/-- What a call returns; a save also yields the aggregate it leaves behind. -/
inductive StreamReturn (St E : Type) where
  | saved (aggregate : Aggregate St E) (result : Except RepositoryError Unit)
  | found (result : Except String (Option (Aggregate St E)))
  | deleted (result : Except String Unit)
  | appended (result : Except RepositoryError Unit)
  | loaded (result : Except String (List (StoredEvent E)))
  deriving DecidableEq

/-- The event store and the state of the snapshot store. -/
structure StreamShared (I E β : Type) [DecidableEq I] where
  store : InMemoryEventStore I E
  snapshots : β

/-- What the environment decides about one operation: the snapshot store and the event bus. -/
structure StreamChoice (χ : Type) where
  snapshot : χ
  published : Except EventBusError Unit := .ok ()

namespace EventSourcing

section System

variable {I St E β χ : Type} [DecidableEq I] (kind : EventSourced I St E)
  (snapshots : SnapshotStore I (Aggregate St E) β χ)

/-- The effect of one operation. -/
def respond (choice : StreamChoice χ) (s : StreamShared I E β) :
    (op : StreamOp I St E) → StreamShared I E β × op.Reply
  | .load id => (s, .ok (s.store.load id))
  | .append id expected events =>
      let out := s.store.append id expected events
      ({ s with store := out.1 }, out.2)
  | .deleteStream id =>
      let out := s.store.deleteStream id
      ({ s with store := out.1 }, out.2)
  | .loadSnapshot id =>
      let out := snapshots.load s.snapshots choice.snapshot id
      ({ s with snapshots := out.1 }, out.2)
  | .saveSnapshot id snapshot =>
      let out := snapshots.save s.snapshots choice.snapshot id snapshot
      ({ s with snapshots := out.1 }, out.2)
  | .publish _ => (s, choice.published)

/-- Every operation is possible at any time. -/
def serve (s : StreamShared I E β) (choice : StreamChoice χ) (op : StreamOp I St E) :
    Option (StreamShared I E β × op.Reply) :=
  some (respond snapshots choice s op)

/-- The program of one call. -/
def body : StreamCall I St E → StreamM I St E (StreamReturn St E)
  | .save aggregate => do
      let (aggregate, result) ← EventSourcedRepository.save kind aggregate
      pure (.saved aggregate result)
  | .find id => do
      let result ← EventSourcedRepository.findById kind id
      pure (.found result)
  | .delete id => do
      let result ← EventSourcedRepository.delete id
      pure (.deleted result)
  | .snapshotSave repository aggregate => do
      let (aggregate, result) ← repository.save kind aggregate
      pure (.saved aggregate result)
  | .snapshotFind id => do
      let result ← SnapshottingEventSourcedRepository.findById kind id
      pure (.found result)
  | .append id expected events => do
      let result ← StreamM.await (.append id expected events)
      pure (.appended result)
  | .loadAfter id after => do
      let result ← Pharos.loadAfter id after
      pure (.loaded result)

/-- Any number of clients over one event store and one snapshot store. -/
def system : System (streamSignature I St E) (StreamShared I E β) (StreamChoice χ)
    (StreamCall I St E) (StreamCall I St E) (StreamReturn St E) where
  serve := serve snapshots
  arrive s call := some (s, [call])
  body := body kind

abbrev StreamPool (I St E β χ : Type) [DecidableEq I] :=
  Pool (streamSignature I St E) (StreamShared I E β) (StreamChoice χ) (StreamCall I St E)
    (StreamReturn St E)

abbrev StreamEvent (I St E χ : Type) := Event (streamSignature I St E) (StreamChoice χ)

abbrev StreamEntry (I St E β χ : Type) [DecidableEq I] :=
  Entry (streamSignature I St E) (StreamShared I E β) (StreamChoice χ) (StreamCall I St E)

/-- Empty stores and no clients yet. -/
def initial : StreamPool I St E β χ where
  shared := { store := .new, snapshots := snapshots.empty }

end System

/-! ## Where a call is -/

section Calls

variable {I St E β χ : Type}

/-- The aggregate as a successful save leaves it. -/
def saved (aggregate : Aggregate St E) : Aggregate St E :=
  { aggregate with version := aggregate.version + aggregate.pending.length, pending := [] }

/-- The aggregate a call saves. -/
def saving : StreamCall I St E → Option (Aggregate St E)
  | .save aggregate | .snapshotSave _ aggregate => some aggregate
  | _ => none

variable (kind : EventSourced I St E)

/-- The append of a save. -/
abbrev appendOf (aggregate : Aggregate St E) : StreamOp I St E :=
  .append (kind.id aggregate.state) aggregate.version aggregate.pending

/-- The operation a call performs after `past`. -/
inductive Awaits : StreamCall I St E → List (StreamEvent I St E χ) → StreamOp I St E → Prop where
  | saves {call : StreamCall I St E} {aggregate : Aggregate St E}
      (saves : saving call = some aggregate) : Awaits call [] (appendOf kind aggregate)
  | snapshots {repository : SnapshottingEventSourcedRepository} {aggregate : Aggregate St E}
      {choice : StreamChoice χ} (grown : aggregate.version < (saved aggregate).version) :
      Awaits (.snapshotSave repository aggregate) [⟨choice, appendOf kind aggregate, .ok ()⟩]
        (.saveSnapshot (kind.id aggregate.state) ⟨saved aggregate, (saved aggregate).version⟩)
  | finds {id : I} : Awaits (.find id) [] (.load id)
  | deletes {id : I} : Awaits (.delete id) [] (.deleteStream id)
  | loadsSnapshot {id : I} : Awaits (.snapshotFind id) [] (.loadSnapshot id)
  | loadsTail {id : I} {choice : StreamChoice χ}
      {reply : Except String (Option (Snapshot (Aggregate St E)))} :
      Awaits (.snapshotFind id) [⟨choice, .loadSnapshot id, reply⟩] (.load id)
  | appends {id : I} {expected : ℕ} {events : List E} :
      Awaits (.append id expected events) [] (.append id expected events)
  | loadsAfter {id : I} {after : ℕ} : Awaits (.loadAfter id after) [] (.load id)

/-- Where a snapshotting find starts its replay. -/
def startOf (reply : Except String (Option (Snapshot (Aggregate St E)))) : Aggregate St E × ℕ :=
  match reply with
  | .ok (some snapshot) => (snapshot.state, snapshot.version)
  | .ok none | .error _ => ({ state := kind.default }, 0)

/-- What a snapshotting find makes of the tail of a stream. -/
def rehydrated (start : Aggregate St E × ℕ) (events : List (StoredEvent E)) :
    Option (Aggregate St E) :=
  if start.2 = 0 ∧ events.isEmpty then none
  else some ((replay kind start events).1.setVersion (replay kind start events).2)

/-- What a call that did `past` returned. -/
inductive Returned :
    StreamCall I St E → List (StreamEvent I St E χ) → StreamReturn St E → Prop where
  | saved {call : StreamCall I St E} {aggregate : Aggregate St E} {choice : StreamChoice χ}
      {past : List (StreamEvent I St E χ)} (saves : saving call = some aggregate)
      (appended : ⟨choice, appendOf kind aggregate, .ok ()⟩ ∈ past) :
      Returned call past (.saved (saved aggregate) (.ok ()))
  | refused {call : StreamCall I St E} {aggregate : Aggregate St E} {choice : StreamChoice χ}
      {error : RepositoryError} (saves : saving call = some aggregate) :
      Returned call [⟨choice, appendOf kind aggregate, .error error⟩]
        (.saved { aggregate with pending := [] } (.error error))
  | found {id : I} {choice : StreamChoice χ} {events : List (StoredEvent E)} :
      Returned (.find id) [⟨choice, .load id, .ok events⟩]
        (.found (.ok (rehydrated kind ({ state := kind.default }, 0) events)))
  | rehydrated {id : I} {choice choice' : StreamChoice χ}
      {reply : Except String (Option (Snapshot (Aggregate St E)))}
      {events : List (StoredEvent E)} :
      Returned (.snapshotFind id) [⟨choice', .load id, .ok events⟩, ⟨choice, .loadSnapshot id, reply⟩]
        (.found (.ok (rehydrated kind (startOf kind reply)
          (events.filter fun stored => decide ((startOf kind reply).2 < stored.sequence)))))
  | deleted {id : I} {choice : StreamChoice χ} {result : Except String Unit} :
      Returned (.delete id) [⟨choice, .deleteStream id, result⟩] (.deleted result)
  | appended {id : I} {expected : ℕ} {events : List E} {choice : StreamChoice χ}
      {result : Except RepositoryError Unit} :
      Returned (.append id expected events) [⟨choice, .append id expected events, result⟩]
        (.appended result)
  | loaded {id : I} {after : ℕ} {choice : StreamChoice χ} {events : List (StoredEvent E)} :
      Returned (.loadAfter id after) [⟨choice, .load id, .ok events⟩]
        (.loaded (.ok (events.filter fun stored => decide (after < stored.sequence))))

/-- The replay of a whole stream. -/
theorem findById_eq (id : I) : EventSourcedRepository.findById kind id =
    StreamM.await (.load id) >>= fun loaded =>
      pure (loaded.map (rehydrated kind ({ state := kind.default }, 0))) := by
  refine congrArg (StreamM.await (.load id) >>= ·) (funext fun loaded => ?_)
  cases loaded with
  | error error => rfl
  | ok events =>
      simp only [Except.map, rehydrated, true_and]
      split
      · rfl
      · rfl

/-- The replay of the tail behind a snapshot. -/
theorem snapshotFindById_eq (id : I) : SnapshottingEventSourcedRepository.findById kind id =
    StreamM.await (.loadSnapshot id) >>= fun reply => StreamM.await (.load id) >>= fun loaded =>
      pure (loaded.map fun events => rehydrated kind (startOf kind reply)
        (events.filter fun stored => decide ((startOf kind reply).2 < stored.sequence))) := by
  have tail (start : Aggregate St E × ℕ) :
      (do
        match ← loadAfter id start.2 with
        | .error error => pure (.error error)
        | .ok events =>
          if start.2 = 0 ∧ events.isEmpty then pure (.ok none)
          else
            let (aggregate, version) := replay kind start events
            pure (.ok (some (aggregate.setVersion version))) :
              StreamM I St E (Except String (Option (Aggregate St E)))) =
      StreamM.await (.load id) >>= fun loaded =>
        pure (loaded.map fun events => rehydrated kind start
          (events.filter fun stored => decide (start.2 < stored.sequence))) := by
    refine congrArg (Program.await (S := streamSignature I St E) (StreamOp.load id))
      (funext fun loaded => ?_)
    cases loaded with
    | error error => rfl
    | ok events =>
        exact (apply_ite (fun result => (pure (.ok result) :
          StreamM I St E (Except String (Option (Aggregate St E))))) _ _ _).symm
  refine congrArg (StreamM.await (.loadSnapshot id) >>= ·) (funext fun reply => ?_)
  cases reply with
  | error error => exact tail ({ state := kind.default }, 0)
  | ok snapshot =>
      cases snapshot with
      | none => exact tail ({ state := kind.default }, 0)
      | some snapshot => exact tail (snapshot.state, snapshot.version)

/-- The aggregate crosses a multiple of the interval. -/
def Due (repository : SnapshottingEventSourcedRepository) (aggregate : Aggregate St E) : Prop :=
  aggregate.version / repository.snapshotEvery <
    (saved aggregate).version / repository.snapshotEvery

instance (repository : SnapshottingEventSourcedRepository) (aggregate : Aggregate St E) :
    Decidable (Due repository aggregate) :=
  inferInstanceAs (Decidable (aggregate.version / repository.snapshotEvery <
    (saved aggregate).version / repository.snapshotEvery))

theorem Due.grown {repository : SnapshottingEventSourcedRepository} {aggregate : Aggregate St E}
    (due : Due repository aggregate) : aggregate.version < (saved aggregate).version := by
  by_contra small
  exact absurd due (Nat.not_lt.mpr (Nat.div_le_div_right (Nat.not_lt.mp small)))

/-- An append at the expected version. -/
theorem save_eq (aggregate : Aggregate St E) : EventSourcedRepository.save kind aggregate =
    StreamM.await (appendOf kind aggregate) >>= fun reply =>
      match reply with
      | .error error => pure ({ aggregate with pending := [] }, .error error)
      | .ok () => pure (saved aggregate, .ok ()) := by
  refine congrArg (Program.await (S := streamSignature I St E) (appendOf kind aggregate))
    (funext fun reply => ?_)
  cases reply with
  | error error => rfl
  | ok _ => rfl

/-- An append, and a snapshot if it is due. -/
theorem snapshotSave_eq (repository : SnapshottingEventSourcedRepository)
    (aggregate : Aggregate St E) : repository.save kind aggregate =
      StreamM.await (appendOf kind aggregate) >>= fun reply =>
        match reply with
        | .error error => pure ({ aggregate with pending := [] }, .error error)
        | .ok () =>
          if Due repository aggregate then
            StreamM.await (.saveSnapshot (kind.id aggregate.state)
              ⟨saved aggregate, (saved aggregate).version⟩) >>= fun _ =>
                pure (saved aggregate, .ok ())
          else pure (saved aggregate, .ok ()) := by
  refine congrArg (Program.await (S := streamSignature I St E) (appendOf kind aggregate))
    (funext fun reply => ?_)
  cases reply with
  | error error => rfl
  | ok _ => rfl

end Calls

section Outline

variable {I St E β χ : Type} [DecidableEq I] (kind : EventSourced I St E)

/-- Every operation is the one its call awaits. -/
def outline (β χ : Type) :
    Outline (streamSignature I St E) (StreamShared I E β) (StreamChoice χ) (StreamCall I St E) where
  inv _ := True
  rely _ _ _ := True
  allowed _ := True
  pre call past _ op := Awaits kind call past op

/-- What a call returns is determined by what it did. -/
def Ends (β χ : Type) (call : StreamCall I St E) (past : List (StreamEvent I St E χ))
    (_ : StreamShared I E β) (value : StreamReturn St E) : Prop :=
  Returned kind call past value

variable {kind} {snapshots : SnapshotStore I (Aggregate St E) β χ} {s : StreamShared I E β}
  {call : StreamCall I St E} {past : List (StreamEvent I St E χ)}

/-- One operation of a call, and the rest of it. -/
theorem safe_await {α : Type} {post : List (StreamEvent I St E χ) → StreamShared I E β → α → Prop}
    {op : StreamOp I St E} {next : op.Reply → StreamM I St E α} (awaits : Awaits kind call past op)
    (rest : ∀ s' choice s'' reply, serve snapshots s' choice op = some (s'', reply) →
      Safe (serve snapshots) (outline kind β χ) call post (next reply)
        (⟨choice, op, reply⟩ :: past) s'') :
    Safe (serve snapshots) (outline kind β χ) call post (StreamM.await op >>= next) past s :=
  Safe.call (S := streamSignature I St E) (fun _ _ _ => awaits)
    fun s' choice s'' reply _ _ _ served => rest s' choice s'' reply served

theorem safe_body (call : StreamCall I St E) :
    Safe (serve snapshots) (outline kind β χ) call (Ends kind β χ call) (body kind call) [] s := by
  cases call with
  | save aggregate =>
      have saves : saving (.save aggregate : StreamCall I St E) = some aggregate := rfl
      refine safe_await (.saves saves) fun s' choice s'' reply _ => ?_
      cases reply with
      | error error => exact .refused saves
      | ok _ => exact .saved saves List.mem_cons_self
  | find id =>
      rw [body, findById_eq]
      refine safe_await .finds fun s' choice s'' reply served => ?_
      cases served
      exact .found
  | delete id => exact safe_await .deletes fun s' choice s'' reply _ => .deleted
  | snapshotSave repository aggregate =>
      have saves : saving (.snapshotSave repository aggregate : StreamCall I St E) =
        some aggregate := rfl
      rw [body, snapshotSave_eq]
      refine safe_await (.saves saves) fun s' choice s'' reply _ => ?_
      cases reply with
      | error error => exact .refused saves
      | ok _ =>
          by_cases due : Due repository aggregate
          · have next : Awaits kind (.snapshotSave repository aggregate)
                [⟨choice, appendOf kind aggregate, .ok ()⟩] _ := .snapshots due.grown
            show Safe _ _ _ _ ((if Due repository aggregate then _ else _) >>= _) _ _
            rw [if_pos due]
            exact safe_await next fun s₁ choice' s₂ reply _ =>
              .saved saves (List.mem_cons_of_mem _ List.mem_cons_self)
          · show Safe _ _ _ _ ((if Due repository aggregate then _ else _) >>= _) _ _
            rw [if_neg due]
            exact .saved saves List.mem_cons_self
  | snapshotFind id =>
      rw [body, snapshotFindById_eq]
      refine safe_await .loadsSnapshot fun s' choice s'' reply _ => ?_
      refine safe_await .loadsTail fun s₁ choice' s₂ loaded served => ?_
      cases served
      exact .rehydrated
  | append id expected events => exact safe_await .appends fun s' choice s'' reply _ => .appended
  | loadAfter id after =>
      refine safe_await .loadsAfter fun s' choice s'' reply served => ?_
      cases served
      exact .loaded

variable {C : StreamPool I St E β χ → Action (StreamChoice χ) (StreamCall I St E) → Prop}
  {p : StreamPool I St E β χ} {i : ℕ}
  {t : Async.Task (streamSignature I St E) (StreamChoice χ) (StreamCall I St E) (StreamReturn St E)}

theorem outline_of_reaches
    (reached : (system kind snapshots).Reaches C (initial snapshots) p) :
    (outline kind β χ).Holds (system kind snapshots) (Ends kind β χ) p := by
  refine Outline.holds_of_reaches (fun _ _ => trivial) (fun _ _ => trivial) ?_ ?_ ?_ reached
  · exact ⟨trivial, fun i t found => (by cases found)⟩
  · intro q i t op next choice s' reply _ _ _ _ _ _
    exact ⟨trivial, trivial, fun _ _ _ _ => trivial⟩
  · intro q arrival s' args _ _ _ _
    exact ⟨trivial, fun _ _ => trivial, fun call _ => safe_body call⟩

theorem awaits_of_reaches (reached : (system kind snapshots).Reaches C (initial snapshots) p)
    {op : StreamOp I St E} {next : op.Reply → StreamM I St E (StreamReturn St E)}
    (found : p.tasks[i]? = some t) (rest : t.rest = .await op next) : Awaits kind t.args t.past op :=
  (outline_of_reaches reached).pre found rest

theorem returned_of_reaches (reached : (system kind snapshots).Reaches C (initial snapshots) p)
    {value : StreamReturn St E} (found : p.tasks[i]? = some t) (rest : t.rest = .ret value) :
    Returned kind t.args t.past value := by
  obtain ⟨s, -, ends⟩ := (outline_of_reaches reached).post_of_ret found rest
  exact ends

/-- A call changes nothing by arriving. -/
theorem shared_of_arrive {s' : StreamShared I E β} {arrival : StreamCall I St E}
    {args : List (StreamCall I St E)}
    (arrived : (system kind snapshots).arrive s arrival = some (s', args)) : s' = s := by
  cases arrived
  rfl

end Outline

end EventSourcing

/-- Failures the environment injects into the snapshot store. -/
structure SnapshotFault where
  load : Option String := none
  save : Option String := none

/-- `InMemorySnapshotStore` with injected failures. -/
def InMemorySnapshotStore.store {I A : Type} [DecidableEq I] :
    SnapshotStore I A (InMemorySnapshotStore I A) SnapshotFault where
  empty := ∅
  load snapshots fault id :=
    match fault.load with
    | some error => (snapshots, .error error)
    | none => (snapshots, .ok (DashMap.get snapshots id))
  save snapshots fault id snapshot :=
    match fault.save with
    | some error => (snapshots, .error error)
    | none => (DashMap.put snapshots id snapshot, .ok ())
  Holds snapshots id snapshot := DashMap.get snapshots id = some snapshot
  holds_empty := by
    intro id snapshot found
    cases found
  load_holds := by
    intro s s' choice id snapshot loaded
    split at loaded
    · cases loaded
    · obtain ⟨-, same⟩ := Prod.mk.inj loaded
      exact Except.ok.inj same
  holds_of_load := by
    intro s choice id other snapshot found
    split at found
    · exact found
    · exact found
  holds_of_save := by
    intro s choice id saved other snapshot found
    split at found
    · exact .inl found
    · rw [DashMap.get_put] at found
      split at found
      · next here =>
        cases found
        exact .inr ⟨here, rfl⟩
      · exact .inl found

namespace EventSourcing

/-! ## Accounts, for the runs below -/

/-- The number of an account and its balance; an event names the account and an amount. -/
def account : EventSourced ℕ (ℕ × ℕ) (ℕ × ℕ) where
  id := Prod.fst
  default := (0, 0)
  apply state event := (event.1, state.2 + event.2)

/-- A new account with a first deposit, not saved yet. -/
def opened (amount : ℕ) : Aggregate (ℕ × ℕ) (ℕ × ℕ) where
  state := (1, amount)
  pending := [(1, amount)]

abbrev AccountPool :=
  StreamPool ℕ (ℕ × ℕ) (ℕ × ℕ) (InMemorySnapshotStore ℕ (Aggregate (ℕ × ℕ) (ℕ × ℕ))) SnapshotFault

abbrev AccountAction := Action (StreamChoice SnapshotFault) (StreamCall ℕ (ℕ × ℕ) (ℕ × ℕ))

/-- The accounts over in-memory stores. -/
abbrev accounts : System (streamSignature ℕ (ℕ × ℕ) (ℕ × ℕ))
    (StreamShared ℕ (ℕ × ℕ) (InMemorySnapshotStore ℕ (Aggregate (ℕ × ℕ) (ℕ × ℕ))))
    (StreamChoice SnapshotFault) (StreamCall ℕ (ℕ × ℕ) (ℕ × ℕ)) (StreamCall ℕ (ℕ × ℕ) (ℕ × ℕ))
    (StreamReturn (ℕ × ℕ) (ℕ × ℕ)) :=
  system account InMemorySnapshotStore.store

end EventSourcing

end Pharos

import Pharos.App.Service
import Pharos.Async.Control
import Pharos.Memory.UnitOfWork

/-!
# The in-memory repository

`pharos-memory/src/in_memory_repository.rs`, under any number of tasks that find, save and delete
aggregates and publish events.  The map entry is held across the version check and the write, so
each call is one step.

The saves of an id that succeeded since its last deletion are its `life`: the repository holds the
last of them, and the versions they were made at count up from 0.  Where nothing is deleted, what a
task has read is one of them, so a save that succeeds on what was read follows it immediately.
-/

namespace Pharos

open Async

/-- What a task over the repository awaits: the repository, the clocks and the event bus. -/
inductive RepositoryOp (I St E : Type) where
  | findById (id : I)
  | save (aggregate : Aggregate St E)
  | delete (id : I)
  | nowV7
  | utcNow
  | publish (event : E)

/-- What each of them returns. -/
def RepositoryOp.Reply {I St E : Type} : RepositoryOp I St E → Type
  | .findById _ => Option (Aggregate St E)
  | .save _ => Except RepositoryError Unit
  | .delete _ => Unit
  | .nowV7 => Uuid
  | .utcNow => Time
  | .publish _ => Except EventBusError Unit

abbrev repositorySignature (I St E : Type) : Signature where
  Op := RepositoryOp I St E
  Reply := RepositoryOp.Reply

abbrev RepositoryM (I St E : Type) := Program (repositorySignature I St E)

/-- What the environment decides for one operation. -/
structure RepositoryChoice where
  uuid : Uuid := 0
  now : Time := 0
  published : Except EventBusError Unit := .ok ()

abbrev RepositoryEvent (I St E : Type) := Event (repositorySignature I St E) RepositoryChoice

namespace InMemoryRepository

section Programs

variable {I St E : Type}

/-- One awaited operation. -/
abbrev await (op : RepositoryOp I St E) : RepositoryM I St E op.Reply :=
  Program.call (S := repositorySignature I St E) op

/-- `Repository::find_by_id`; the in-memory store never fails on its own. -/
def findById (id : I) : RepositoryM I St E (Except String (Option (Aggregate St E))) := do
  let found ← await (.findById id)
  pure (.ok found)

/-- `Repository::save`. -/
def save (aggregate : Aggregate St E) :
    RepositoryM I St E (Aggregate St E × Except RepositoryError Unit) := do
  match ← await (.save aggregate) with
  | .error error => pure (aggregate, .error error)
  | .ok () => pure (aggregate.setVersion (aggregate.version + 1), .ok ())

/-- `Repository::delete`. -/
def delete (id : I) : RepositoryM I St E (Except String Unit) := do
  await (.delete id)
  pure (.ok ())

/-- `EventBus::publish`. -/
def publish (event : E) : RepositoryM I St E (Except EventBusError Unit) :=
  await (.publish event)

end Programs

section System

variable {I St E : Type} [DecidableEq I] (idOf : St → I)

/-- The effect of one operation. -/
def serve (store : DashMap I (Aggregate St E)) (choice : RepositoryChoice) :
    (op : RepositoryOp I St E) → Option (DashMap I (Aggregate St E) × op.Reply)
  | .findById id => some (store, store.get id)
  | .save aggregate => some (InMemoryUnitOfWork.saveEntry idOf store aggregate)
  | .delete id => some (store.remove id, ())
  | .nowV7 => some (store, choice.uuid)
  | .utcNow => some (store, choice.now)
  | .publish _ => some (store, choice.published)

/-- Any number of tasks on one repository. -/
def system {τ α : Type} (body : τ → RepositoryM I St E α) :
    System (repositorySignature I St E) (DashMap I (Aggregate St E)) RepositoryChoice τ τ α where
  serve := serve idOf
  arrive store request := some (store, [request])
  body := body

/-- An empty repository. -/
def initial {τ α : Type} : Pool (repositorySignature I St E) (DashMap I (Aggregate St E))
    RepositoryChoice τ α where
  shared := ∅

/-- The aggregate as a successful save leaves it in the store. -/
def stored (aggregate : Aggregate St E) : Aggregate St E :=
  snapshotWithoutPendingEvents (aggregate.setVersion (aggregate.version + 1))

/-- A save succeeds on the version it expects, and changes nothing otherwise. -/
theorem saveEntry_cases {store store' : DashMap I (Aggregate St E)} {aggregate : Aggregate St E}
    {result : Except RepositoryError Unit}
    (saved : InMemoryUnitOfWork.saveEntry idOf store aggregate = (store', result)) :
    (result = .ok () ∧
        ((store.get (idOf aggregate.state)).map Aggregate.version).getD 0 = aggregate.version ∧
        store' = store.put (idOf aggregate.state) (stored aggregate)) ∨
      (∃ actual, result = .error (.concurrencyConflict aggregate.version actual)) ∧
        store' = store := by
  unfold InMemoryUnitOfWork.saveEntry at saved
  cases found : store.get (idOf aggregate.state) with
  | some occupied =>
      rw [found] at saved
      simp only at saved
      split at saved
      · cases saved
        exact .inr ⟨⟨_, rfl⟩, rfl⟩
      · next same =>
        cases saved
        exact .inl ⟨rfl, not_not.mp same, rfl⟩
  | none =>
      rw [found] at saved
      simp only at saved
      split at saved
      · cases saved
        exact .inr ⟨⟨_, rfl⟩, rfl⟩
      · next same =>
        cases saved
        exact .inl ⟨rfl, (not_not.mp same).symm, rfl⟩

end System

/-! ## The life of an id -/

section Life

variable {I St E : Type} [DecidableEq I] (idOf : St → I)

/-- How one operation goes on with the life of `id`. -/
def continued (id : I) (life : List (Aggregate St E)) :
    RepositoryEvent I St E → List (Aggregate St E)
  | ⟨_, .save aggregate, .ok ()⟩ => if idOf aggregate.state = id then life ++ [aggregate] else life
  | ⟨_, .delete other, _⟩ => if other = id then [] else life
  | _ => life

variable {τ α : Type}

abbrev RepositoryPool (I St E τ α : Type) [DecidableEq I] :=
  Pool (repositorySignature I St E) (DashMap I (Aggregate St E)) RepositoryChoice τ α

/-- The aggregates saved under `id` since it was last deleted, as their tasks saved them. -/
def life (p : RepositoryPool I St E τ α) (id : I) : List (Aggregate St E) :=
  p.trace.foldl (fun life entry => continued idOf id life entry.event) []

/-- What the repository holds of an id, by its life. -/
structure Lives (id : I) (store : DashMap I (Aggregate St E)) (life : List (Aggregate St E)) :
    Prop where
  held : store.get id = life.getLast?.map stored
  versions : ∀ (k : ℕ) aggregate, life[k]? = some aggregate →
    aggregate.version = k ∧ idOf aggregate.state = id

variable {idOf} {id : I} {store store' : DashMap I (Aggregate St E)} {lived : List (Aggregate St E)}
  {choice : RepositoryChoice} {op : RepositoryOp I St E} {reply : op.Reply}

theorem Lives.version (lives : Lives idOf id store lived) :
    ((store.get id).map Aggregate.version).getD 0 = lived.length := by
  rw [lives.held]
  cases last : lived.getLast? with
  | none =>
      rw [List.getLast?_eq_none_iff] at last
      simp [last]
  | some aggregate =>
      rw [List.getLast?_eq_getElem?] at last
      have version := (lives.versions _ _ last).1
      have long := (List.getElem?_eq_some_iff.mp last).1
      show aggregate.version + 1 = lived.length
      omega

/-- The step lemma. -/
theorem Lives.step (lives : Lives idOf id store lived)
    (served : serve idOf store choice op = some (store', reply)) :
    Lives idOf id store' (continued idOf id lived ⟨choice, op, reply⟩) := by
  cases op with
  | findById _ | nowV7 | utcNow | publish _ =>
      cases served
      exact lives
  | delete other =>
      cases served
      simp only [continued]
      split
      · next here =>
        subst here
        refine ⟨?_, fun k aggregate at_ => by simp at at_⟩
        rw [DashMap.get_remove]
        simp
      · next elsewhere =>
        refine ⟨?_, lives.versions⟩
        rw [DashMap.get_remove, if_neg (Ne.symm elsewhere)]
        exact lives.held
  | save aggregate =>
      have saved := Option.some.inj served
      rcases saveEntry_cases idOf saved with ⟨rfl, expected, rfl⟩ | ⟨⟨actual, rfl⟩, rfl⟩
      · simp only [continued]
        split
        · next here =>
          subst here
          rw [lives.version] at expected
          refine ⟨by simp, fun k other at_ => ?_⟩
          rw [List.getElem?_append] at at_
          split at at_
          · exact lives.versions k other at_
          · next behind =>
            obtain ⟨last, rfl⟩ := List.getElem?_eq_some_iff.mp at_
            simp only [List.length_singleton] at last
            simp only [List.getElem_singleton]
            exact ⟨by omega, trivial⟩
        · next elsewhere =>
          refine ⟨?_, lives.versions⟩
          rw [DashMap.get_put_of_ne (Ne.symm elsewhere)]
          exact lives.held
      · exact lives

/-- A save that succeeded expected as many saves as there were. -/
theorem Lives.expected {aggregate : Aggregate St E}
    (lives : Lives idOf (idOf aggregate.state) store lived)
    (served : serve idOf store choice (.save aggregate) = some (store', .ok ())) :
    aggregate.version = lived.length := by
  rcases saveEntry_cases idOf (Option.some.inj served) with ⟨-, expected, -⟩ | ⟨⟨actual, failed⟩, -⟩
  · rw [← expected, lives.version]
  · cases failed

/-- What is saved at the version after `before` follows `before`. -/
theorem Lives.last_of_version {before : Aggregate St E} (lives : Lives idOf id store lived)
    (member : before ∈ lived) (version : before.version + 1 = lived.length) :
    lived.getLast? = some before := by
  obtain ⟨k, at_⟩ := List.mem_iff_getElem?.mp member
  have here := (lives.versions k before at_).1
  rw [List.getLast?_eq_getElem?, show lived.length - 1 = k by omega, at_]

end Life

/-! ## Whole runs -/

section Runs

variable {I St E τ α : Type} [DecidableEq I] {idOf : St → I} {body : τ → RepositoryM I St E α}
  {C : RepositoryPool I St E τ α → Action RepositoryChoice τ → Prop} {p : RepositoryPool I St E τ α}

theorem life_advance {i : ℕ} {t : Async.Task (repositorySignature I St E) RepositoryChoice τ α}
    {event : RepositoryEvent I St E} {store : DashMap I (Aggregate St E)}
    {rest : RepositoryM I St E α} (id : I) :
    life idOf (p.advance i t event store rest) id = continued idOf id (life idOf p id) event := by
  unfold life
  rw [Pool.advance_trace, List.foldl_append]
  rfl

theorem life_start {store : DashMap I (Aggregate St E)} {args : List τ} (id : I) :
    life idOf (p.start body store args) id = life idOf p id := rfl

theorem lives_of_reaches (reached : (system idOf body).Reaches C initial p) (id : I) :
    Lives idOf id p.shared (life idOf p id) := by
  refine reached.invariant (P := fun p => Lives idOf id p.shared (life idOf p id)) ?_ ?_
  · exact ⟨DashMap.get_empty id, fun k aggregate at_ => by simp [life, initial] at at_⟩
  · intro q r action _ lives _ stepped
    obtain ⟨request, store, args, rfl, arrived, rfl⟩ |
      ⟨i, choice, t, op, next, store, reply, rfl, found, awaits, served, rfl⟩ :=
      System.step_cases stepped
    · cases arrived
      exact lives
    · rw [life_advance]
      exact lives.step served

/-- The tasks never delete. -/
def Keeps (op : RepositoryOp I St E) : Prop := ∀ id, op ≠ .delete id

theorem subset_continued {op : RepositoryOp I St E} (keeps : Keeps op) (choice : RepositoryChoice)
    (reply : op.Reply) (id : I) (lived : List (Aggregate St E)) :
    lived ⊆ continued idOf id lived ⟨choice, op, reply⟩ := by
  cases op with
  | delete other => exact (keeps other rfl).elim
  | save aggregate =>
      cases reply with
      | error _ => exact fun _ member => member
      | ok _ =>
          simp only [continued]
          split
          · exact List.subset_append_left _ _
          · exact fun _ member => member
  | findById _ | nowV7 | utcNow | publish _ => exact fun _ member => member

/-- What a task has read was saved. -/
theorem saved_of_read (reached : (system idOf body).Reaches C initial p)
    (keeps : ∀ request, (body request).Only Keeps) (id : I) :
    ∀ t ∈ p.tasks, ∀ choice aggregate,
      (⟨choice, .findById id, some aggregate⟩ : RepositoryEvent I St E) ∈ t.past →
      ∃ before ∈ life idOf p id, aggregate = stored before := by
  refine reached.invariant (P := fun p => ∀ t ∈ p.tasks, ∀ choice aggregate,
    (⟨choice, .findById id, some aggregate⟩ : RepositoryEvent I St E) ∈ t.past →
    ∃ before ∈ life idOf p id, aggregate = stored before) ?_ ?_
  · intro t started
    cases started
  · intro q r action before known _ stepped
    obtain ⟨request, store, args, rfl, arrived, rfl⟩ |
      ⟨i, choice, t, op, next, store, reply, rfl, found, awaits, served, rfl⟩ :=
      System.step_cases stepped
    · cases arrived
      intro t started drawn aggregate did
      rcases Pool.mem_start started with old | ⟨a, -, rfl⟩
      · exact known t old drawn aggregate did
      · cases did
    · have keep : Keeps op := before.only_op rfl keeps found awaits
      have grows : ∀ {aggregate}, (∃ before ∈ life idOf q id, aggregate = stored before) →
          ∃ before ∈ life idOf (q.advance i t ⟨choice, op, reply⟩ store (next reply)) id,
            aggregate = stored before := by
        rintro aggregate ⟨before, member, same⟩
        rw [life_advance]
        exact ⟨before, subset_continued keep choice reply id _ member, same⟩
      intro u started drawn aggregate did
      rcases List.mem_or_eq_of_mem_set started with old | rfl
      · exact grows (known u old drawn aggregate did)
      · rcases List.mem_cons.mp did with now | old
        · cases now
          have answer : q.shared.get id = some aggregate :=
            congrArg Prod.snd (Option.some.inj served)
          rw [(lives_of_reaches before id).held] at answer
          obtain ⟨latest, last, same⟩ := Option.map_eq_some_iff.mp answer
          exact grows ⟨latest, List.mem_of_getLast? last, same.symm⟩
        · exact grows (known t (List.mem_of_getElem? found) drawn aggregate old)

end Runs

/-! ## New aggregates only -/

section Filled

variable {I St E : Type} [DecidableEq I] (idOf : St → I)

/-- The repository holds what was `saved`, each aggregate once and at its first version. -/
structure Filled (store : DashMap I (Aggregate St E)) (saved : List (Aggregate St E)) : Prop where
  held : ∀ id aggregate, store.get id = some aggregate ↔
    ∃ first ∈ saved, idOf first.state = id ∧ aggregate = stored first
  apart : (saved.map fun first => idOf first.state).Nodup
  fresh : ∀ first ∈ saved, first.version = 0

variable {idOf} {store store' : DashMap I (Aggregate St E)} {saved : List (Aggregate St E)}
  {aggregate : Aggregate St E}

theorem filled_empty : Filled idOf (∅ : DashMap I (Aggregate St E)) [] := by
  refine ⟨fun id aggregate => ?_, List.nodup_nil, fun first listed => ?_⟩
  · rw [DashMap.get_empty]
    simp
  · cases listed

theorem Filled.perm {saved' : List (Aggregate St E)} (filled : Filled idOf store saved)
    (same : saved.Perm saved') : Filled idOf store saved' := by
  refine ⟨fun id aggregate => ?_, (same.map _).nodup_iff.mp filled.apart, fun first listed => ?_⟩
  · rw [filled.held]
    simp only [same.mem_iff]
  · exact filled.fresh first (same.mem_iff.mpr listed)

/-- A new aggregate can be saved where there is none yet. -/
theorem Filled.save (filled : Filled idOf store saved) (fresh : aggregate.version = 0)
    (served : InMemoryUnitOfWork.saveEntry idOf store aggregate = (store', .ok ())) :
    Filled idOf store' (saved ++ [aggregate]) := by
  rcases saveEntry_cases idOf served with ⟨-, expected, rfl⟩ | ⟨⟨actual, failed⟩, -⟩
  · have vacant : store.get (idOf aggregate.state) = none := by
      cases found : store.get (idOf aggregate.state) with
      | none => rfl
      | some occupied =>
          obtain ⟨first, -, -, rfl⟩ := (filled.held _ _).mp found
          rw [found, fresh] at expected
          cases expected
    have new : ∀ first ∈ saved, idOf first.state ≠ idOf aggregate.state := by
      intro first listed same
      have found := (filled.held _ _).mpr ⟨first, listed, same, rfl⟩
      rw [vacant] at found
      cases found
    refine ⟨fun id other => ?_, ?_, fun first listed => ?_⟩
    · rw [DashMap.get_put]
      split
      · next here =>
        subst here
        constructor
        · intro same
          cases same
          exact ⟨aggregate, by simp, rfl, rfl⟩
        · rintro ⟨first, listed, same, rfl⟩
          rcases List.mem_append.mp listed with old | last
          · exact absurd same (new first old)
          · rw [List.mem_singleton.mp last]
      · next elsewhere =>
        rw [filled.held]
        constructor
        · rintro ⟨first, listed, same⟩
          exact ⟨first, List.mem_append_left _ listed, same⟩
        · rintro ⟨first, listed, same, rfl⟩
          rcases List.mem_append.mp listed with old | last
          · exact ⟨first, old, same, rfl⟩
          · rw [List.mem_singleton.mp last] at same
            exact absurd same.symm elsewhere
    · rw [List.map_append, List.map_singleton]
      apply List.Nodup.append filled.apart (List.nodup_singleton _)
      intro id old last
      obtain ⟨first, listed, same⟩ := List.mem_map.mp old
      exact new first listed (same.trans (List.mem_singleton.mp last))
    · rcases List.mem_append.mp listed with old | last
      · exact filled.fresh first old
      · rw [List.mem_singleton.mp last]
        exact fresh
  · cases failed

/-- A new aggregate is refused where there is one already. -/
theorem Filled.refused {error : RepositoryError} (filled : Filled idOf store saved)
    (fresh : aggregate.version = 0)
    (served : InMemoryUnitOfWork.saveEntry idOf store aggregate = (store', .error error)) :
    error = .concurrencyConflict 0 (some 1) ∧ store' = store ∧
      ∃ first ∈ saved, idOf first.state = idOf aggregate.state := by
  unfold InMemoryUnitOfWork.saveEntry at served
  cases found : store.get (idOf aggregate.state) with
  | none => simp [found, fresh] at served
  | some occupied =>
      obtain ⟨first, listed, same, rfl⟩ := (filled.held _ _).mp found
      have version : (stored first).version = 1 := by
        show first.version + 1 = 1
        rw [filled.fresh first listed]
      rw [found] at served
      simp only [version, fresh] at served
      cases served
      exact ⟨rfl, rfl, first, listed, same⟩

/-- What was there is still there when more is saved. -/
theorem Filled.kept {saved' : List (Aggregate St E)} {id : I} (filled : Filled idOf store saved)
    (filled' : Filled idOf store' saved') (more : saved ⊆ saved')
    (found : store.get id = some aggregate) : store'.get id = some aggregate := by
  obtain ⟨first, listed, same⟩ := (filled.held id aggregate).mp found
  exact (filled'.held id aggregate).mpr ⟨first, more listed, same⟩

/-- An id goes to one of those that save. -/
theorem Filled.alone {γ : Type} {savers : List γ} {saves : γ → List (Aggregate St E)} {i j : ℕ}
    {t u : γ} {first second : Aggregate St E} (filled : Filled idOf store (savers.flatMap saves))
    (at_i : savers[i]? = some t) (at_j : savers[j]? = some u) (byFirst : first ∈ saves t)
    (bySecond : second ∈ saves u) (same : idOf first.state = idOf second.state) : i = j := by
  have apart := filled.apart
  rw [List.map_flatMap, List.nodup_flatMap, List.pairwise_iff_getElem] at apart
  obtain ⟨inside, rfl⟩ := List.getElem?_eq_some_iff.mp at_i
  obtain ⟨inside', rfl⟩ := List.getElem?_eq_some_iff.mp at_j
  rcases Nat.lt_trichotomy i j with less | rfl | more
  · have disjoint := apart.2 i j inside inside' less
    exact (disjoint (List.mem_map_of_mem byFirst)
      (List.mem_map.mpr ⟨second, bySecond, same.symm⟩)).elim
  · rfl
  · have disjoint := apart.2 j i inside' inside more
    exact (disjoint (List.mem_map_of_mem bySecond)
      (List.mem_map.mpr ⟨first, byFirst, same⟩)).elim

/-- Tasks that only save new aggregates, each known by its event, fill the repository. -/
theorem filled_of_reaches {S : Signature} {σ ι κ τ α : Type} {sys : System S σ ι κ τ α}
    {C : Pool S σ ι τ α → Action ι κ → Prop} {p q : Pool S σ ι τ α}
    (shelf : σ → DashMap I (Aggregate St E)) (savedBy : Event S ι → Option (Aggregate St E))
    (reached : sys.Reaches C p q) (idle : p.tasks = []) (empty : shelf p.shared = ∅)
    (arrives : ∀ {s arrival s' args}, sys.arrive s arrival = some (s', args) → shelf s' = shelf s)
    (steps : ∀ {q : Pool S σ ι τ α} {i : ℕ} {t : Async.Task S ι τ α} {op next choice s reply},
      sys.Reaches C p q → q.tasks[i]? = some t → t.rest = .await op next →
      sys.serve q.shared choice op = some (s, reply) →
      (savedBy ⟨choice, op, reply⟩ = none ∧ shelf s = shelf q.shared) ∨
        ∃ aggregate, savedBy ⟨choice, op, reply⟩ = some aggregate ∧ aggregate.version = 0 ∧
          InMemoryUnitOfWork.saveEntry idOf (shelf q.shared) aggregate = (shelf s, .ok ())) :
    Filled idOf (shelf q.shared)
      (q.tasks.flatMap fun t => (t.past.filterMap savedBy).reverse) := by
  refine reached.invariant (P := fun q => Filled idOf (shelf q.shared)
    (q.tasks.flatMap fun t => (t.past.filterMap savedBy).reverse)) ?_ ?_
  · rw [idle, empty]
    exact filled_empty
  · intro q r action before filled _ stepped
    obtain ⟨arrival, s, args, rfl, arrived, rfl⟩ |
      ⟨i, choice, t, op, next, s, reply, rfl, found, awaits, served, rfl⟩ :=
      System.step_cases stepped
    · have none : (args.map fun a => (⟨a, [], sys.body a⟩ : Async.Task S ι τ α)).flatMap
          (fun t => (t.past.filterMap savedBy).reverse) = [] := by
        simp [List.flatMap_eq_nil_iff]
      rw [Pool.start_shared, arrives arrived, Pool.start_tasks, List.flatMap_append, none,
        List.append_nil]
      exact filled
    · rw [Pool.advance_shared, Pool.advance_tasks]
      rcases steps before found awaits served with
        ⟨none, same⟩ | ⟨aggregate, saves, fresh, entered⟩
      · rw [same, flatMap_set_of_eq found]
        · exact filled
        · rw [reverse_filterMap_cons, none]
          exact List.append_nil _
      · apply (filled.save fresh entered).perm
        refine (flatMap_set_perm found _ ?_).symm
        rw [reverse_filterMap_cons, saves]
        rfl

end Filled

end InMemoryRepository

end Pharos

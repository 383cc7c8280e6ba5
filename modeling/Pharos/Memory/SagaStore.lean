import Mathlib.Data.List.Sort
import Mathlib.Data.List.Perm.Basic
import Pharos.Async.Versioned
import Pharos.Memory.DashMap
import Pharos.Saga.Instance

/-!
# The in-memory saga store

`pharos-memory/src/in_memory_saga_store.rs`.  `save` and `claim_due` hold the
store's one lock for their whole body, so each is one function of the map.

`claimDue` returns only running, due instances (`mem_claimDue`), and both
operations move every row along `Async.Later` (`save_later`, `claimDue_later`).
-/

namespace Pharos

/-- The in-memory backend has no failure modes of its own. -/
inductive InMemorySagaStoreError where
  | never
  deriving DecidableEq

/-- The stored instances. -/
abbrev InMemorySagaStore (I St : Type) := DashMap I (SagaInstance I St)

namespace InMemorySagaStore

variable {I St : Type} [DecidableEq I]

/-- `SagaStore::load`. -/
def load (store : InMemorySagaStore I St) (id : I) :
    Except InMemorySagaStoreError (Option (SagaInstance I St)) :=
  .ok (store.get id)

/-- `SagaStore::save`: compare the version, then write. -/
def save (store : InMemorySagaStore I St) (inst : SagaInstance I St) :
    InMemorySagaStore I St × Except (SagaSaveError InMemorySagaStoreError) Unit :=
  let expected := inst.version
  let newVersion := expected + 1
  match store.get inst.id with
  | none =>
      if expected ≠ 0 then (store, .error (.concurrencyConflict expected none))
      else (store.put inst.id { inst with version := newVersion }, .ok ())
  | some stored =>
      let actual := stored.version
      if actual ≠ expected then (store, .error (.concurrencyConflict expected (some actual)))
      else (store.put inst.id { inst with version := newVersion }, .ok ())

/-- The filter of `claim_due`: running, with a deadline at or before `now`. -/
def Due (now : Time) (entry : SagaInstance I St) : Prop :=
  entry.status = .running ∧ ∃ deadline ∈ entry.deadline, deadline ≤ now

instance (now : Time) (entry : SagaInstance I St) : Decidable (Due now entry) :=
  match found : entry.deadline with
  | none => .isFalse (by simp [Due, found])
  | some deadline =>
      decidable_of_iff (entry.status = .running ∧ deadline ≤ now) (by simp [Due, found])

/-- The sort key of `claim_due`. -/
def dueAt (store : InMemorySagaStore I St) (now : Time) (id : I) : Time :=
  ((store.get id).bind (·.deadline)).getD now

/-- The ids `claim_due` picks: due ones, soonest deadline first, at most `limit`;
`order` is the order in which the map was iterated. -/
def dueIds (store : InMemorySagaStore I St) (order : List I) (now : Time) (limit : ℕ) : List I :=
  let due := order.filter fun id => (store.get id).any fun entry => decide (Due now entry)
  (due.insertionSort fun a b => store.dueAt now a ≤ store.dueAt now b).take limit

/-- The claiming loop of `claim_due`: the stored row gets the lease as its deadline and
a new version, the caller gets the original deadline. -/
def claimAll (now : Time) (lease : ChronoDuration) :
    List I → InMemorySagaStore I St → InMemorySagaStore I St × List (SagaInstance I St)
  | [], store => (store, [])
  | id :: due, store =>
      match store.get id with
      | none => claimAll now lease due store
      | some entry =>
          let leased :=
            { entry with deadline := some (now + lease), version := entry.version + 1 }
          let rest := claimAll now lease due (store.put id leased)
          (rest.1, { leased with deadline := entry.deadline } :: rest.2)

/-- `SagaTimeoutStore::claim_due`. -/
def claimDue (store : InMemorySagaStore I St) (order : List I) (now : Time)
    (lease : ChronoDuration) (limit : ℕ) : InMemorySagaStore I St × List (SagaInstance I St) :=
  claimAll now lease (store.dueIds order now limit) store

/-! ## What `save` does -/

/-- A save either wrote on top of the version it expected or changed nothing. -/
theorem save_cases (store : InMemorySagaStore I St) (inst : SagaInstance I St) :
    (∃ expected actual, store.save inst = (store, .error (.concurrencyConflict expected actual))) ∨
    ((store.get inst.id = none ∧ inst.version = 0 ∨
        ∃ stored, store.get inst.id = some stored ∧ stored.version = inst.version) ∧
      store.save inst =
        (store.put inst.id { inst with version := inst.version + 1 }, .ok ())) := by
  unfold save
  cases found : store.get inst.id with
  | none =>
      by_cases fresh : inst.version = 0
      · exact .inr ⟨.inl ⟨rfl, fresh⟩, by simp [fresh]⟩
      · exact .inl ⟨inst.version, none, by simp [fresh]⟩
  | some stored =>
      by_cases same : stored.version = inst.version
      · exact .inr ⟨.inr ⟨stored, rfl, same⟩, by simp [same]⟩
      · exact .inl ⟨inst.version, some stored.version, by simp [same]⟩

theorem save_later (store : InMemorySagaStore I St) (inst : SagaInstance I St) (id : I) :
    Async.Later SagaInstance.version (store.get id) ((store.save inst).1.get id) := by
  rcases save_cases store inst with ⟨expected, actual, eq⟩ | ⟨row, eq⟩
  · rw [eq]
    exact .refl _
  · rw [eq, DashMap.get_put]
    split
    · next same =>
      subst same
      rcases row with ⟨absent, fresh⟩ | ⟨stored, found, same⟩
      · rw [absent]
        exact Nat.succ_pos _
      · rw [found]
        exact Async.Later.of_lt (by simp only [same]; omega)
    · exact .refl _

/-! ## What `claim_due` does -/

/-- `claim_due` visits a row once: it claims it, and no other row changes. -/
theorem claimAll_get {now : Time} {lease : ChronoDuration} {due : List I} (nodup : due.Nodup)
    (store : InMemorySagaStore I St) (id : I) :
    (claimAll now lease due store).1.get id =
      if id ∈ due then
        (store.get id).map fun entry =>
          { entry with deadline := some (now + lease), version := entry.version + 1 }
      else store.get id := by
  induction due generalizing store with
  | nil => simp [claimAll]
  | cons head due ih =>
      rw [List.nodup_cons] at nodup
      unfold claimAll
      split
      · next absent =>
        rw [ih nodup.2]
        by_cases same : id = head
        · subst same
          simp [nodup.1, absent]
        · simp [same]
      · next entry found =>
        simp only
        rw [ih nodup.2]
        by_cases same : id = head
        · subst same
          simp [nodup.1, found]
        · simp [same, DashMap.get_put_of_ne same]

/-- Every claimed instance is the stored one with its version raised. -/
theorem mem_claimAll {now : Time} {lease : ChronoDuration} {due : List I} (nodup : due.Nodup)
    {store : InMemorySagaStore I St} {inst : SagaInstance I St}
    (claimed : inst ∈ (claimAll now lease due store).2) :
    ∃ id ∈ due, ∃ entry, store.get id = some entry ∧
      inst = { entry with version := entry.version + 1 } := by
  induction due generalizing store with
  | nil => simp [claimAll] at claimed
  | cons head due ih =>
      rw [List.nodup_cons] at nodup
      unfold claimAll at claimed
      split at claimed
      · next absent =>
        rcases ih nodup.2 claimed with ⟨id, member, entry, found, eq⟩
        exact ⟨id, List.mem_cons_of_mem _ member, entry, found, eq⟩
      · next entry found =>
        simp only [List.mem_cons] at claimed
        rcases claimed with rfl | claimed
        · exact ⟨head, List.mem_cons_self, entry, found, rfl⟩
        · rcases ih nodup.2 claimed with ⟨id, member, row, at_id, eq⟩
          have distinct : id ≠ head := fun same => nodup.1 (same ▸ member)
          rw [DashMap.get_put_of_ne distinct] at at_id
          exact ⟨id, List.mem_cons_of_mem _ member, row, at_id, eq⟩

/-- Every visited row is claimed. -/
theorem claimed_of_mem {now : Time} {lease : ChronoDuration} {due : List I} (nodup : due.Nodup)
    {store : InMemorySagaStore I St} {id : I} {entry : SagaInstance I St} (member : id ∈ due)
    (found : store.get id = some entry) :
    { entry with version := entry.version + 1 } ∈ (claimAll now lease due store).2 := by
  induction due generalizing store with
  | nil => cases member
  | cons head due ih =>
      rw [List.nodup_cons] at nodup
      unfold claimAll
      by_cases same : id = head
      · subst same
        simp only [found]
        exact List.mem_cons_self
      · have later : id ∈ due := (List.mem_cons.mp member).resolve_left same
        split
        · exact ih nodup.2 later found
        · refine List.mem_cons_of_mem _ (ih nodup.2 later ?_)
          rw [DashMap.get_put_of_ne same, found]

theorem nodup_dueIds {store : InMemorySagaStore I St} {order : List I} {now : Time} {limit : ℕ}
    (iterated : order.Perm store.keys) : (store.dueIds order now limit).Nodup := by
  have nodup : order.Nodup := iterated.nodup_iff.mpr store.nodupKeys
  unfold dueIds
  exact ((List.perm_insertionSort _ _).nodup_iff.mpr (nodup.filter _)).sublist
    (List.take_sublist _ _)

theorem due_of_mem_dueIds {store : InMemorySagaStore I St} {order : List I} {now : Time}
    {limit : ℕ} {id : I} (member : id ∈ store.dueIds order now limit) :
    ∃ entry, store.get id = some entry ∧ Due now entry := by
  unfold dueIds at member
  have sorted := List.mem_of_mem_take member
  rw [(List.perm_insertionSort _ _).mem_iff, List.mem_filter] at sorted
  rcases (Option.any_eq_true _ _).mp sorted.2 with ⟨entry, found, due⟩
  exact ⟨entry, found, of_decide_eq_true due⟩

/-- A claimed instance was running and due, keeps its deadline and has the stored version. -/
theorem mem_claimDue {store : InMemorySagaStore I St} {order : List I} {now : Time}
    {lease : ChronoDuration} {limit : ℕ} (iterated : order.Perm store.keys)
    {inst : SagaInstance I St} (claimed : inst ∈ (store.claimDue order now lease limit).2) :
    ∃ id entry, id ∈ store.dueIds order now limit ∧ store.get id = some entry ∧ Due now entry ∧
      inst = { entry with version := entry.version + 1 } := by
  rcases mem_claimAll (nodup_dueIds iterated) claimed with ⟨id, member, entry, found, eq⟩
  rcases due_of_mem_dueIds member with ⟨entry', found', due⟩
  rw [found] at found'
  cases found'
  exact ⟨id, entry, member, found, due, eq⟩

theorem claimed_of_mem_dueIds {store : InMemorySagaStore I St} {order : List I} {now : Time}
    {lease : ChronoDuration} {limit : ℕ} (iterated : order.Perm store.keys) {id : I}
    {entry : SagaInstance I St} (member : id ∈ store.dueIds order now limit)
    (found : store.get id = some entry) :
    { entry with version := entry.version + 1 } ∈ (store.claimDue order now lease limit).2 :=
  claimed_of_mem (nodup_dueIds iterated) member found

/-- The row of `id` after `claim_due`. -/
theorem claimDue_get {store : InMemorySagaStore I St} {order : List I} {now : Time}
    {lease : ChronoDuration} {limit : ℕ} (iterated : order.Perm store.keys) (id : I) :
    (store.claimDue order now lease limit).1.get id =
      if id ∈ store.dueIds order now limit then
        (store.get id).map fun entry =>
          { entry with deadline := some (now + lease), version := entry.version + 1 }
      else store.get id :=
  claimAll_get (nodup_dueIds iterated) store id

theorem claimDue_later {store : InMemorySagaStore I St} {order : List I} {now : Time}
    {lease : ChronoDuration} {limit : ℕ} (iterated : order.Perm store.keys) (id : I) :
    Async.Later SagaInstance.version (store.get id)
      ((store.claimDue order now lease limit).1.get id) := by
  rw [claimDue_get iterated]
  split
  · next member =>
    rcases due_of_mem_dueIds member with ⟨entry, found, -⟩
    rw [found]
    exact Async.Later.of_lt (Nat.lt_succ_self _)
  · exact .refl _

end InMemorySagaStore

end Pharos

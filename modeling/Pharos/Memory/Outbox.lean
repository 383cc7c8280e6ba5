import Mathlib.Data.List.Sort
import Mathlib.Data.List.Perm.Basic
import Pharos.Memory.DashMap
import Pharos.Messaging.Outbox

/-!
# The in-memory outbox

`pharos-memory/src/in_memory_outbox.rs`.  Rows are stored under their own id; the
repository carries this with it.  `pending` reads the candidates first and then
claims them row by row, each row under its own lock.

What the proofs use of `pending` is `mem_pending`, `pending_get`, `nodup_pending` and
`pending_closed`: it claims due rows only, changes nothing but their lease, and never
passes over a due row for a later one.
-/

namespace Pharos

/-- `created_at`, then `id`: the order in which messages are claimed. -/
def OutboxMessage.Before (a b : OutboxMessage) : Prop :=
  a.createdAt < b.createdAt ∨ a.createdAt = b.createdAt ∧ a.id < b.id

instance (a b : OutboxMessage) : Decidable (a.Before b) :=
  inferInstanceAs (Decidable (a.createdAt < b.createdAt ∨ a.createdAt = b.createdAt ∧ a.id < b.id))

theorem OutboxMessage.Before.irrefl (a : OutboxMessage) : ¬ a.Before a := by
  rintro (lt | ⟨-, lt⟩)
  · exact lt_irrefl _ lt
  · exact lt_irrefl _ lt

theorem OutboxMessage.Before.asymm {a b : OutboxMessage} (before : a.Before b) : ¬ b.Before a := by
  rintro (lt | ⟨same, lt⟩)
  · rcases before with lt' | ⟨same', -⟩
    · exact lt_asymm lt lt'
    · exact lt.ne same'.symm
  · rcases before with lt' | ⟨-, lt'⟩
    · exact lt'.ne same.symm
    · exact lt_asymm lt lt'

/-- The same message, in whatever state of delivery. -/
def OutboxMessage.Follows (row' row : OutboxMessage) : Prop :=
  row'.message = row.message ∧ row'.createdAt = row.createdAt

theorem OutboxMessage.Follows.trans {a b c : OutboxMessage} (first : a.Follows b)
    (second : b.Follows c) : a.Follows c :=
  ⟨first.1.trans second.1, first.2.trans second.2⟩

/-- The stored rows, each under its id, and the lease of a claim. -/
structure InMemoryOutboxRepository where
  store : DashMap Uuid OutboxMessage
  claimLease : ChronoDuration
  keyed : ∀ id row, store.get id = some row → row.id = id

namespace InMemoryOutboxRepository

/-- An empty repository. -/
def new (claimLease : ChronoDuration) : InMemoryOutboxRepository where
  store := ∅
  claimLease := claimLease
  keyed _ _ found := by cases found

/-- The stored row of `id`. -/
def get (repo : InMemoryOutboxRepository) (id : Uuid) : Option OutboxMessage := repo.store.get id

/-- Write a row under its id. -/
def write (repo : InMemoryOutboxRepository) (row : OutboxMessage) : InMemoryOutboxRepository where
  store := repo.store.put row.id row
  claimLease := repo.claimLease
  keyed id other found := by
    rw [DashMap.get_put] at found
    split at found
    · next same =>
      cases found
      exact same.symm
    · exact repo.keyed id other found

/-- `OutboxRepository::insert`. -/
def insert (repo : InMemoryOutboxRepository) (message : OutboxMessage) :
    InMemoryOutboxRepository × Except OutboxError Unit :=
  (repo.write message, .ok ())

/-- The filter of `pending`. -/
def Due (now : Time) (entry : OutboxMessage) : Prop :=
  entry.status = .pending ∧ entry.nextAttemptAt ≤ now

instance (now : Time) (entry : OutboxMessage) : Decidable (Due now entry) :=
  inferInstanceAs (Decidable (entry.status = .pending ∧ entry.nextAttemptAt ≤ now))

/-- The sort key of the candidates, an id with its creation time. -/
def NotAfter (a b : Uuid × Time) : Prop := a.2 < b.2 ∨ a.2 = b.2 ∧ a.1 ≤ b.1

instance : DecidableRel NotAfter := fun a b =>
  inferInstanceAs (Decidable (a.2 < b.2 ∨ a.2 = b.2 ∧ a.1 ≤ b.1))

/-- The due entries that the iteration `order` over the store meets. -/
def dueEntries (repo : InMemoryOutboxRepository) (order : List Uuid) (now : Time) :
    List (Uuid × Time) :=
  order.filterMap fun key =>
    (repo.get key).bind fun entry => if Due now entry then some (entry.id, entry.createdAt) else none

/-- The first pass of `pending`: what it wants to claim. -/
def candidates (repo : InMemoryOutboxRepository) (order : List Uuid) (now : Time) (limit : ℕ) :
    List (Uuid × Time) :=
  ((repo.dueEntries order now).insertionSort NotAfter).take limit

/-- One round of the second pass: claim the row unless it is no longer due. -/
def claim (repo : InMemoryOutboxRepository) (now : Time) (id : Uuid) :
    InMemoryOutboxRepository × Option OutboxMessage :=
  match repo.get id with
  | none => (repo, none)
  | some entry =>
      if Due now entry then
        let leased := { entry with nextAttemptAt := now + repo.claimLease }
        (repo.write leased, some leased)
      else (repo, none)

/-- The second pass of `pending`. -/
def claimAll (now : Time) :
    List (Uuid × Time) → InMemoryOutboxRepository → InMemoryOutboxRepository × List OutboxMessage
  | [], repo => (repo, [])
  | (id, _) :: candidates, repo =>
      let first := repo.claim now id
      let rest := claimAll now candidates first.1
      (rest.1, first.2.toList ++ rest.2)

/-- `OutboxRepository::pending`; `order` is the order in which the store was iterated. -/
def pending (repo : InMemoryOutboxRepository) (order : List Uuid) (now : Time) (limit : ℕ) :
    InMemoryOutboxRepository × Except OutboxError (List OutboxMessage) :=
  let claimed := claimAll now (repo.candidates order now limit) repo
  (claimed.1, .ok claimed.2)

/-- `get_mut(&id).ok_or(NotFound(id))?`, then an update in place. -/
def update (repo : InMemoryOutboxRepository) (id : Uuid) (change : OutboxMessage → OutboxMessage) :
    InMemoryOutboxRepository × Except OutboxError Unit :=
  match repo.get id with
  | none => (repo, .error (.notFound id))
  | some message => (repo.write (change message), .ok ())

/-- `OutboxRepository::schedule_retry`; the clock is read twice. -/
def scheduleRetry (repo : InMemoryOutboxRepository) (id : Uuid) (delay : Duration)
    (now now' : Time) : InMemoryOutboxRepository × Except OutboxError Unit :=
  match repo.get id with
  | none => (repo, .error (.notFound id))
  | some message =>
      match fromStd delay with
      | .error source => (repo, .error (.storage source))
      | .ok delay =>
          (repo.write { message with nextAttemptAt := now + delay, updatedAt := now' }, .ok ())

/-- `OutboxRepository::record_attempt`. -/
def recordAttempt (repo : InMemoryOutboxRepository) (id : Uuid) (now : Time) :
    InMemoryOutboxRepository × Except OutboxError Unit :=
  repo.update id (·.recordAttempt now)

/-- `OutboxRepository::mark_published`. -/
def markPublished (repo : InMemoryOutboxRepository) (id : Uuid) (now : Time) :
    InMemoryOutboxRepository × Except OutboxError Unit :=
  repo.update id (·.markPublished now)

/-- `OutboxRepository::mark_failed`. -/
def markFailed (repo : InMemoryOutboxRepository) (id : Uuid) (error : String) (now : Time) :
    InMemoryOutboxRepository × Except OutboxError Unit :=
  repo.update id (·.markFailed now error)

/-- `OutboxRepository::mark_dead_lettered`. -/
def markDeadLettered (repo : InMemoryOutboxRepository) (id : Uuid) (now : Time) :
    InMemoryOutboxRepository × Except OutboxError Unit :=
  repo.update id fun row => { row with status := .deadLettered, updatedAt := now }

/-! ## Reading what was written -/

variable {repo : InMemoryOutboxRepository}

@[simp] theorem get_new (lease : ChronoDuration) (id : Uuid) : (new lease).get id = none := rfl

theorem get_write (row : OutboxMessage) (id : Uuid) :
    (repo.write row).get id = if id = row.id then some row else repo.get id :=
  DashMap.get_put _ _ _ _

@[simp] theorem get_write_self (row : OutboxMessage) : (repo.write row).get row.id = some row :=
  DashMap.get_put_self _ _ _

theorem get_write_of_ne {row : OutboxMessage} {id : Uuid} (distinct : id ≠ row.id) :
    (repo.write row).get id = repo.get id :=
  DashMap.get_put_of_ne distinct

/-- Writing rows leaves the others as they were. -/
theorem get_foldl_write_of_notMem (rows : List OutboxMessage) {id : Uuid}
    (other : id ∉ rows.map OutboxMessage.id) : (rows.foldl write repo).get id = repo.get id := by
  induction rows generalizing repo with
  | nil => rfl
  | cons row rows ih =>
      rw [List.map_cons, List.mem_cons, not_or] at other
      rw [List.foldl_cons, ih other.2, get_write_of_ne other.1]

/-- Rows with distinct ids are all there once they are written. -/
theorem get_foldl_write (rows : List OutboxMessage) (distinct : (rows.map OutboxMessage.id).Nodup)
    {row : OutboxMessage} (member : row ∈ rows) : (rows.foldl write repo).get row.id = some row := by
  induction rows generalizing repo with
  | nil => cases member
  | cons first rows ih =>
      rw [List.map_cons, List.nodup_cons] at distinct
      rw [List.foldl_cons]
      rcases List.mem_cons.mp member with rfl | member
      · rw [get_foldl_write_of_notMem rows distinct.1, get_write_self]
      · exact ih distinct.2 member

@[simp] theorem claimLease_write (row : OutboxMessage) :
    (repo.write row).claimLease = repo.claimLease := rfl

theorem id_of_get {id : Uuid} {row : OutboxMessage} (found : repo.get id = some row) :
    row.id = id :=
  repo.keyed id row found

/-- An update that keeps the id writes the changed row back in its place. -/
theorem update_eq {id : Uuid} {row : OutboxMessage} {change : OutboxMessage → OutboxMessage}
    (found : repo.get id = some row) : repo.update id change = (repo.write (change row), .ok ()) := by
  simp only [update, found]

/-- At most the row of `id` differs, and no message is lost or exchanged. -/
def Touches (repo repo' : InMemoryOutboxRepository) (id : Uuid) : Prop :=
  (∀ other, other ≠ id → repo'.get other = repo.get other) ∧
    ∀ other row, repo.get other = some row → ∃ row', repo'.get other = some row' ∧ row'.Follows row

theorem Touches.refl (repo : InMemoryOutboxRepository) (id : Uuid) : repo.Touches repo id :=
  ⟨fun _ _ => rfl, fun _ row found => ⟨row, found, rfl, rfl⟩⟩

theorem touches_write {id : Uuid} {old row : OutboxMessage} (found : repo.get id = some old)
    (same : row.id = old.id) (follows : row.Follows old) : repo.Touches (repo.write row) id := by
  have same : row.id = id := same.trans (id_of_get found)
  refine ⟨fun other distinct => get_write_of_ne (same ▸ distinct), fun other before stored => ?_⟩
  rw [get_write]
  split
  · next here =>
    rw [here, same, found] at stored
    cases stored
    exact ⟨row, rfl, follows⟩
  · exact ⟨before, stored, rfl, rfl⟩

theorem touches_update {id : Uuid} {change : OutboxMessage → OutboxMessage}
    (keeps : ∀ row, (change row).id = row.id) (follows : ∀ row, (change row).Follows row) :
    repo.Touches (repo.update id change).1 id := by
  unfold update
  split
  · exact .refl repo id
  · next row found => exact touches_write found (keeps row) (follows row)

theorem touches_scheduleRetry {id : Uuid} {delay : Duration} {now now' : Time} :
    repo.Touches (repo.scheduleRetry id delay now now').1 id := by
  unfold scheduleRetry
  split
  · exact .refl repo id
  · next row found =>
    split
    · exact .refl repo id
    · exact touches_write found rfl ⟨rfl, rfl⟩

/-! ## What `pending` claims -/

/-- What a claim returns and stores: the row with a new lease. -/
def leased (lease : ChronoDuration) (now : Time) (row : OutboxMessage) : OutboxMessage :=
  { row with nextAttemptAt := now + lease }

theorem claim_due {id : Uuid} {now : Time} {row : OutboxMessage} (found : repo.get id = some row)
    (due : Due now row) :
    repo.claim now id =
      (repo.write (leased repo.claimLease now row), some (leased repo.claimLease now row)) := by
  simp only [claim, found, if_pos due, leased]

/-- Distinct candidates, all of them due. -/
def Wanted (repo : InMemoryOutboxRepository) (now : Time) (wanted : List (Uuid × Time)) : Prop :=
  (wanted.map Prod.fst).Nodup ∧
    ∀ c ∈ wanted, ∃ row, repo.get c.1 = some row ∧ Due now row ∧ row.createdAt = c.2

/-- Claiming one candidate leaves the others wanted. -/
theorem Wanted.tail {now : Time} {head : Uuid × Time} {wanted : List (Uuid × Time)}
    (all : repo.Wanted now (head :: wanted)) (row : OutboxMessage) (same : row.id = head.1) :
    (repo.write row).Wanted now wanted ∧
      ∀ c ∈ wanted, (repo.write row).get c.1 = repo.get c.1 := by
  rcases all with ⟨nodup, due⟩
  rw [List.map_cons, List.nodup_cons] at nodup
  have others : ∀ c ∈ wanted, (repo.write row).get c.1 = repo.get c.1 := by
    intro c member
    refine get_write_of_ne fun eq => nodup.1 ?_
    rw [← same, ← eq]
    exact List.mem_map_of_mem member
  refine ⟨⟨nodup.2, fun c member => ?_⟩, others⟩
  rw [others c member]
  exact due c (List.mem_cons_of_mem _ member)

/-- The claiming pass returns the wanted rows, in order, with their new lease. -/
theorem claimAll_snd {now : Time} {wanted : List (Uuid × Time)} (all : repo.Wanted now wanted) :
    (claimAll now wanted repo).2 =
      wanted.filterMap fun c => (repo.get c.1).map (leased repo.claimLease now) := by
  induction wanted generalizing repo with
  | nil => rfl
  | cons head wanted ih =>
      obtain ⟨row, found, due, -⟩ := all.2 head List.mem_cons_self
      have same : row.id = head.1 := id_of_get found
      have rest := all.tail (leased repo.claimLease now row) same
      unfold claimAll
      rw [claim_due found due, List.filterMap_cons, found]
      simp only [Option.toList_some, List.singleton_append, Option.map_some, List.cons.injEq,
        true_and]
      rw [ih rest.1]
      exact List.filterMap_congr fun c member => by rw [rest.2 c member]; rfl

/-- The claiming pass stores the wanted rows with their new lease and changes no other. -/
theorem claimAll_get {now : Time} {wanted : List (Uuid × Time)} (all : repo.Wanted now wanted)
    (id : Uuid) :
    (claimAll now wanted repo).1.get id =
      if id ∈ wanted.map Prod.fst then (repo.get id).map (leased repo.claimLease now)
      else repo.get id := by
  induction wanted generalizing repo with
  | nil => rfl
  | cons head wanted ih =>
      obtain ⟨row, found, due, -⟩ := all.2 head List.mem_cons_self
      have same : row.id = head.1 := id_of_get found
      have rest := all.tail (leased repo.claimLease now row) same
      have fresh := (List.nodup_cons.mp all.1).1
      unfold claimAll
      simp only [claim_due found due]
      rw [ih rest.1, get_write]
      by_cases here : id = head.1
      · subst here
        simp [fresh, found, leased, same]
      · have elsewhere : id ≠ (leased repo.claimLease now row).id := fun eq => here (eq.trans same)
        simp only [List.map_cons, List.mem_cons, here, false_or, if_neg elsewhere,
          claimLease_write]

theorem map_fst_dueEntries (order : List Uuid) (now : Time) :
    (repo.dueEntries order now).map Prod.fst =
      order.filter fun key => (repo.get key).any fun entry => decide (Due now entry) := by
  unfold dueEntries
  induction order with
  | nil => rfl
  | cons key order ih =>
      rw [List.filterMap_cons, List.filter_cons]
      cases found : repo.get key with
      | none => simpa using ih
      | some entry =>
          by_cases due : Due now entry
          · simp [due, ih, id_of_get found]
          · simp [due, ih]

theorem mem_dueEntries {order : List Uuid} {now : Time} {c : Uuid × Time} :
    c ∈ repo.dueEntries order now ↔
      c.1 ∈ order ∧ ∃ row, repo.get c.1 = some row ∧ Due now row ∧ row.createdAt = c.2 := by
  unfold dueEntries
  rw [List.mem_filterMap]
  constructor
  · rintro ⟨key, visited, selected⟩
    obtain ⟨entry, found, selected⟩ := Option.bind_eq_some_iff.mp selected
    split at selected
    · next due =>
      cases selected
      have same := id_of_get found
      simp only [same]
      exact ⟨visited, entry, found, due, rfl⟩
    · cases selected
  · rintro ⟨visited, row, found, due, created⟩
    refine ⟨c.1, visited, ?_⟩
    simp only [found, Option.bind_some, if_pos due, id_of_get found, created]

theorem notAfter_total (a b : Uuid × Time) : NotAfter a b ∨ NotAfter b a := by
  rcases lt_trichotomy a.2 b.2 with before | same | after
  · exact .inl (.inl before)
  · exact (le_total a.1 b.1).imp (fun le => .inr ⟨same, le⟩) fun le => .inr ⟨same.symm, le⟩
  · exact .inr (.inl after)

theorem notAfter_trans (a b c : Uuid × Time) (first : NotAfter a b) (second : NotAfter b c) :
    NotAfter a c := by
  rcases first with before | ⟨same, le⟩
  · rcases second with before' | ⟨same', -⟩
    · exact .inl (before.trans before')
    · exact .inl (same' ▸ before)
  · rcases second with before' | ⟨same', le'⟩
    · exact .inl (same ▸ before')
    · exact .inr ⟨same.trans same', le.trans le'⟩

theorem not_notAfter_of_before {a b : Uuid × Time} (before : a.2 < b.2 ∨ a.2 = b.2 ∧ a.1 < b.1) :
    ¬ NotAfter b a := by
  rintro (after | ⟨same, le⟩)
  · rcases before with before | ⟨same, -⟩
    · exact absurd after (not_lt.mpr before.le)
    · exact absurd same after.ne'
  · rcases before with before | ⟨-, lt⟩
    · exact absurd same before.ne'
    · exact absurd le (not_le.mpr lt)

/-- Sorted by creation time and id, and no id twice. -/
theorem pairwise_before {messages : List OutboxMessage}
    (sorted : messages.Pairwise fun a b => NotAfter (a.id, a.createdAt) (b.id, b.createdAt))
    (nodup : (messages.map OutboxMessage.id).Nodup) : messages.Pairwise OutboxMessage.Before := by
  refine (sorted.and (List.pairwise_map.mp nodup)).imp fun {a b} both => ?_
  rcases both with ⟨before | ⟨same, le⟩, ne⟩
  · exact .inl before
  · exact .inr ⟨same, lt_of_le_of_ne le ne⟩

section Pending

variable {order : List Uuid} {now : Time} {limit : ℕ} (iterated : order.Perm repo.store.keys)

include iterated

theorem nodup_dueEntries : ((repo.dueEntries order now).map Prod.fst).Nodup := by
  rw [map_fst_dueEntries]
  exact (iterated.nodup_iff.mpr repo.store.nodupKeys).filter _

theorem wanted_candidates : repo.Wanted now (repo.candidates order now limit) := by
  have perm := List.perm_insertionSort NotAfter (repo.dueEntries order now)
  refine ⟨?_, fun c member => ?_⟩
  · have nodup := (perm.map Prod.fst).nodup_iff.mpr (nodup_dueEntries iterated)
    exact nodup.sublist ((List.take_sublist _ _).map _)
  · have entry := perm.mem_iff.mp (List.mem_of_mem_take member)
    exact (mem_dueEntries.mp entry).2

omit iterated in
theorem pairwise_candidates : (repo.candidates order now limit).Pairwise NotAfter := by
  have : Std.Total NotAfter := ⟨notAfter_total⟩
  have : IsTrans (Uuid × Time) NotAfter := ⟨notAfter_trans⟩
  exact (List.pairwise_insertionSort NotAfter _).sublist (List.take_sublist _ _)

/-- A claimed message is a due row with a new lease. -/
theorem mem_pending {m : OutboxMessage} {claimed : List OutboxMessage}
    (answered : (repo.pending order now limit).2 = .ok claimed) (member : m ∈ claimed) :
    ∃ row, repo.get m.id = some row ∧ Due now row ∧ m = leased repo.claimLease now row := by
  have wanted : repo.Wanted now (repo.candidates order now limit) := wanted_candidates iterated
  cases answered
  rw [claimAll_snd wanted, List.mem_filterMap] at member
  obtain ⟨c, candidate, claimed⟩ := member
  obtain ⟨row, found, due, -⟩ := wanted.2 c candidate
  have same : row.id = c.1 := id_of_get found
  rw [found] at claimed
  cases claimed
  refine ⟨row, ?_, due, rfl⟩
  rw [← found]
  exact congrArg repo.get same

/-- The claimed messages are the candidates, in order. -/
theorem map_key_pending {claimed : List OutboxMessage}
    (answered : (repo.pending order now limit).2 = .ok claimed) :
    claimed.map (fun m => (m.id, m.createdAt)) = repo.candidates order now limit := by
  have wanted : repo.Wanted now (repo.candidates order now limit) := wanted_candidates iterated
  cases answered
  rw [claimAll_snd wanted]
  generalize repo.candidates order now limit = list at wanted
  induction list with
  | nil => rfl
  | cons head list ih =>
      obtain ⟨row, found, due, created⟩ := wanted.2 head List.mem_cons_self
      have same : row.id = head.1 := id_of_get found
      have rest : repo.Wanted now list :=
        ⟨(List.nodup_cons.mp wanted.1).2, fun c member => wanted.2 c (List.mem_cons_of_mem _ member)⟩
      rw [List.filterMap_cons, found, Option.map_some, List.map_cons, ih rest]
      exact congrArg (· :: _) (Prod.ext same created)

theorem map_id_pending {claimed : List OutboxMessage}
    (answered : (repo.pending order now limit).2 = .ok claimed) :
    claimed.map OutboxMessage.id = (repo.candidates order now limit).map Prod.fst := by
  rw [← map_key_pending iterated answered, List.map_map]
  rfl

theorem nodup_pending {claimed : List OutboxMessage}
    (answered : (repo.pending order now limit).2 = .ok claimed) :
    (claimed.map OutboxMessage.id).Nodup := by
  rw [map_id_pending iterated answered]
  exact (wanted_candidates iterated).1

/-- Messages are claimed in the order of their creation. -/
theorem pairwise_pending {claimed : List OutboxMessage}
    (answered : (repo.pending order now limit).2 = .ok claimed) :
    claimed.Pairwise OutboxMessage.Before := by
  have sorted : (repo.candidates order now limit).Pairwise NotAfter := pairwise_candidates
  rw [← map_key_pending iterated answered, List.pairwise_map] at sorted
  exact pairwise_before sorted (nodup_pending iterated answered)

/-- A claimed message is stored as it was returned. -/
theorem pending_get_of_mem {m : OutboxMessage} {claimed : List OutboxMessage}
    (answered : (repo.pending order now limit).2 = .ok claimed) (member : m ∈ claimed) :
    (repo.pending order now limit).1.get m.id = some m := by
  have wanted : repo.Wanted now (repo.candidates order now limit) := wanted_candidates iterated
  have listed : m.id ∈ (repo.candidates order now limit).map Prod.fst := by
    rw [← map_id_pending iterated answered]
    exact List.mem_map_of_mem member
  obtain ⟨row, found, -, eq⟩ := mem_pending iterated answered member
  show (claimAll now _ repo).1.get m.id = some m
  rw [claimAll_get wanted, if_pos listed, found, Option.map_some, ← eq]

/-- A due row is claimed if `pending` may claim as many rows as there are. -/
theorem mem_pending_of_due {id : Uuid} {row : OutboxMessage} {claimed : List OutboxMessage}
    (answered : (repo.pending order now limit).2 = .ok claimed) (enough : order.length ≤ limit)
    (found : repo.get id = some row) (due : Due now row) :
    leased repo.claimLease now row ∈ claimed := by
  have perm := List.perm_insertionSort NotAfter (repo.dueEntries order now)
  have fits : ((repo.dueEntries order now).insertionSort NotAfter).length ≤ limit := by
    rw [List.length_insertionSort]
    exact (List.length_filterMap_le _ _).trans enough
  have visited : id ∈ order := iterated.mem_iff.mpr (DashMap.mem_keys.mpr ⟨row, found⟩)
  have listed : (id, row.createdAt) ∈ repo.candidates order now limit := by
    unfold candidates
    rw [List.take_of_length_le fits]
    exact perm.mem_iff.mpr (mem_dueEntries.mpr ⟨visited, row, found, due, rfl⟩)
  rw [← map_key_pending iterated answered] at listed
  obtain ⟨m, member, same⟩ := List.mem_map.mp listed
  obtain ⟨source, stored, -, rfl⟩ := mem_pending iterated answered member
  have here : (leased repo.claimLease now source).id = id := congrArg Prod.fst same
  rw [here, found] at stored
  cases stored
  exact member

/-- `pending` changes no row that it does not claim. -/
theorem pending_get_of_not_mem {id : Uuid} {claimed : List OutboxMessage}
    (answered : (repo.pending order now limit).2 = .ok claimed)
    (other : id ∉ claimed.map OutboxMessage.id) :
    (repo.pending order now limit).1.get id = repo.get id := by
  rw [map_id_pending iterated answered] at other
  show (claimAll now _ repo).1.get id = repo.get id
  rw [claimAll_get (wanted_candidates iterated), if_neg other]

/-- A due row before a claimed message is claimed too. -/
theorem pending_closed {m row : OutboxMessage} {id : Uuid} {claimed : List OutboxMessage}
    (answered : (repo.pending order now limit).2 = .ok claimed) (member : m ∈ claimed)
    (found : repo.get id = some row) (due : Due now row) (before : row.Before m) :
    id ∈ claimed.map OutboxMessage.id := by
  have perm := List.perm_insertionSort NotAfter (repo.dueEntries order now)
  have visited : ∀ {key r}, repo.get key = some r → key ∈ order := fun found =>
    iterated.mem_iff.mpr (DashMap.mem_keys.mpr ⟨_, found⟩)
  rw [map_id_pending iterated answered]
  -- `m` stands in the kept part of the sorted candidates, and `row` somewhere in the whole
  obtain ⟨source, stored, -, eq⟩ := mem_pending iterated answered member
  have kept : m.id ∈ (repo.candidates order now limit).map Prod.fst := by
    rw [← map_id_pending iterated answered]
    exact List.mem_map_of_mem member
  obtain ⟨c, candidate, same⟩ := List.mem_map.mp kept
  have entry : c ∈ repo.dueEntries order now := perm.mem_iff.mp (List.mem_of_mem_take candidate)
  obtain ⟨-, source', stored', -, created⟩ := mem_dueEntries.mp entry
  rw [same, stored] at stored'
  cases stored'
  have listed : (id, row.createdAt) ∈ (repo.dueEntries order now).insertionSort NotAfter :=
    perm.mem_iff.mpr (mem_dueEntries.mpr ⟨visited found, row, found, due, rfl⟩)
  rw [← List.take_append_drop limit ((repo.dueEntries order now).insertionSort NotAfter),
    List.mem_append] at listed
  rcases listed with early | late
  · exact List.mem_map_of_mem early
  · -- a dropped candidate does not come before a kept one
    have : Std.Total NotAfter := ⟨notAfter_total⟩
    have : IsTrans (Uuid × Time) NotAfter := ⟨notAfter_trans⟩
    have sorted := List.pairwise_insertionSort NotAfter (repo.dueEntries order now)
    rw [← List.take_append_drop limit ((repo.dueEntries order now).insertionSort NotAfter),
      List.pairwise_append] at sorted
    have after := sorted.2.2 c candidate _ late
    have sameTime : source.createdAt = m.createdAt := by rw [eq]; rfl
    rw [OutboxMessage.Before, ← sameTime, created, ← same, id_of_get found] at before
    exact absurd after (not_notAfter_of_before before)

end Pending

end InMemoryOutboxRepository

end Pharos

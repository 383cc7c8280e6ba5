import Pharos.Outbox.Clients

/-!
# Dead-letter sweeps

A sweep lists the failed messages, then parks and marks them one by one; nothing ties its
three steps together, so a second sweep that lists a message before the first has marked it
parks it again (`swept_twice`).  A sweep is *about to park* a message from the moment it read
the row as failed until it marks it.  As long as no sweep reads a row as failed that another
one is about to park, and no dispatcher fails a message again that was dead-lettered, every
message is parked at most once and a dead-lettered one exactly once (`swept_once`).
-/

namespace Pharos

namespace OutboxClients

open Async

/-! ## What a sweep did so far -/

/-- The id of the row that was read as failed. -/
def readFailed : ClientEvent → Option Uuid
  | ⟨_, .visit _, some row⟩ => if row.status = .failed then some row.id else none
  | _ => none

/-- The id of the row whose message was parked. -/
def parkedId : ClientEvent → Option Uuid
  | ⟨_, .deadLetter source _, .ok ()⟩ => some source.id
  | _ => none

/-- The id of the row that was marked dead-lettered. -/
def markedId : ClientEvent → Option Uuid
  | ⟨_, .markDeadLettered id, _⟩ => some id
  | _ => none

/-- The message that was parked last and is to be marked next. -/
def parking (past : List ClientEvent) : Option Uuid := past.head?.bind parkedId

/-- The task is a sweep. -/
def IsSweep : ClientTask → Prop
  | .call (.sweepFailedToDeadLetter _) => True
  | _ => False

instance : DecidablePred IsSweep
  | .call (.sweepFailedToDeadLetter _) => .isTrue trivial
  | .call (.pending _) | .call (.failed _) | .call (.operation _) | .call (.markDeadLettered _)
  | .call (.dispatchPending _) | .lane _ => .isFalse id

/-- A sweep in flight that read the row as failed and has not marked it. -/
def AboutToPark (id : Uuid)
    (t : Async.Task clientSignature ClientChoice ClientTask ClientReturn) : Prop :=
  IsSweep t.args ∧ ¬ t.Finished ∧ id ∈ t.past.filterMap readFailed ∧
    id ∉ t.past.filterMap markedId

instance (id : Uuid) : DecidablePred (AboutToPark id) := fun t =>
  inferInstanceAs (Decidable (IsSweep t.args ∧ ¬ t.Finished ∧
    id ∈ t.past.filterMap readFailed ∧ id ∉ t.past.filterMap markedId))

/-- The row was read as `m`, which is failed. -/
def Listed (past : List ClientEvent) (m : OutboxMessage) : Prop :=
  m.status = .failed ∧ ∃ choice, (⟨choice, .visit m.id, some m⟩ : ClientEvent) ∈ past

/-- Nothing was parked or marked yet. -/
def Unswept (past : List ClientEvent) : Prop :=
  past.filterMap parkedId = [] ∧ past.filterMap markedId = []

theorem Listed.mem_readFailed {past : List ClientEvent} {m : OutboxMessage}
    (listed : Listed past m) : m.id ∈ past.filterMap readFailed := by
  obtain ⟨status, choice, visited⟩ := listed
  refine List.mem_filterMap.mpr ⟨_, visited, ?_⟩
  simp only [readFailed, if_pos status]

theorem Listed.grow {past past' : List ClientEvent} {m : OutboxMessage} (listed : Listed past m)
    (grown : past <:+ past') : Listed past' m := by
  obtain ⟨status, choice, visited⟩ := listed
  exact ⟨status, choice, grown.subset visited⟩

theorem Unswept.parking {past : List ClientEvent} (unswept : Unswept past) :
    parking past = none := by
  cases past with
  | nil => rfl
  | cons event past => exact List.filterMap_eq_nil_iff.mp unswept.1 event List.mem_cons_self

/-! ## The proof outline of a sweep -/

/-- What an operation of a sweep finds in the sweep's past: a message is parked that was read as
failed and neither parked nor marked before, and it is marked next. -/
def SweepReady (past : List ClientEvent) : ClientOp → Prop
  | .deadLetter source _ => parking past = none ∧ source.id ∈ past.filterMap readFailed ∧
      source.id ∉ past.filterMap parkedId ∧ source.id ∉ past.filterMap markedId
  | .markDeadLettered id => parking past = some id ∧ id ∈ past.filterMap readFailed ∧
      id ∉ past.filterMap markedId
  | _ => parking past = none

/-- The annotations are about sweeps and what they did themselves. -/
def sweepOutline : Outline clientSignature ClientShared ClientChoice ClientTask where
  inv _ := True
  rely _ _ _ := True
  allowed _ := True
  pre a past _ op := IsSweep a → SweepReady past op

/-- A sweep does not end between parking and marking; `failed` lists what it read. -/
def SweepEnds : ClientTask → List ClientEvent → ClientShared → ClientReturn → Prop
  | .call (.sweepFailedToDeadLetter _), past, _, _ => parking past = none
  | .call (.failed _), past, _, value =>
      ∃ batch, value = .listed (.ok batch) ∧ ∀ m ∈ batch, Listed past m
  | _, _, _, _ => True

section Outline

variable {config : DispatchConfig} {a : ClientTask} {past : List ClientEvent} {s : ClientShared}

/-- The first pass of `failed` lists failed rows at distinct keys and parks nothing. -/
theorem safe_scan_failure (keys : List Uuid) (unswept : Unswept past) :
    Safe (serve config) sweepOutline a
      (fun past' _ found => (found.map OutboxMessage.id).Sublist keys ∧
        (∀ m ∈ found, Listed past' m) ∧ Unswept past')
      (scan failure keys) past s := by
  induction keys generalizing past s with
  | nil => exact ⟨List.Sublist.refl [], fun m member => (by cases member), unswept⟩
  | cons key keys ih =>
      refine Safe.call (S := clientSignature) (fun _ _ _ _ => unswept.parking) ?_
      intro s' choice s'' entry _ _ _ served
      have unswept' : Unswept ((⟨choice, .visit key, entry⟩ : ClientEvent) :: past) := unswept
      refine Safe.bind ((ih unswept').grows (List.suffix_refl _)) ?_
      rintro past' s₂ found ⟨⟨distinct, listed, unswept₂⟩, grown⟩
      cases served
      cases stored : s'.repo.get key with
      | none => exact ⟨distinct.cons key, listed, unswept₂⟩
      | some entry =>
          have same : entry.id = key := InMemoryOutboxRepository.id_of_get stored
          by_cases status : entry.status = .failed
          · simp only [Option.bind_some, failure, if_pos status]
            refine ⟨?_, fun m member => ?_, unswept₂⟩
            · rw [← same]
              exact distinct.cons_cons entry.id
            · rcases List.mem_cons.mp member with rfl | later
              · refine ⟨status, choice, grown.subset ?_⟩
                rw [same, stored]
                exact List.mem_cons_self
              · exact listed m later
          · simp only [Option.bind_some, failure, if_neg status]
            exact ⟨distinct.cons key, listed, unswept₂⟩

theorem safe_failed (limit : ℕ) (unswept : Unswept past) :
    Safe (serve config) sweepOutline a
      (fun past' _ result => ∃ batch, result = .ok batch ∧ (batch.map OutboxMessage.id).Nodup ∧
        (∀ m ∈ batch, Listed past' m) ∧ Unswept past')
      (failed limit) past s := by
  refine Safe.call (S := clientSignature) (fun _ _ _ _ => unswept.parking) ?_
  intro s' choice s'' keys _ _ _ served
  have distinct : keys.Nodup := nodup_iter served
  have unswept' : Unswept ((⟨choice, .iter, keys⟩ : ClientEvent) :: past) := unswept
  refine Safe.bind (safe_scan_failure keys unswept') ?_
  rintro past' s₂ found ⟨sub, listed, unswept₂⟩
  have perm := List.perm_insertionSort NotLater found
  refine ⟨_, rfl, ?_, fun m member => ?_, unswept₂⟩
  · have nodup := (perm.map OutboxMessage.id).nodup_iff.mpr (distinct.sublist sub)
    exact nodup.sublist ((List.take_sublist _ _).map _)
  · exact listed m (perm.mem_iff.mp (List.mem_of_mem_take member))

/-- The loop of a sweep over what it listed. -/
theorem safe_sweepEach {messages : List OutboxMessage} {swept : ℕ}
    (idle : parking past = none) (nodup : (messages.map OutboxMessage.id).Nodup)
    (listed : ∀ m ∈ messages, Listed past m)
    (unparked : ∀ m ∈ messages, m.id ∉ past.filterMap parkedId)
    (unmarked : ∀ m ∈ messages, m.id ∉ past.filterMap markedId) :
    Safe (serve config) sweepOutline a (fun past' _ _ => parking past' = none)
      (sweepEach messages swept) past s := by
  induction messages generalizing past s swept with
  | nil => exact idle
  | cons message messages ih =>
      rw [List.map_cons, List.nodup_cons] at nodup
      have read := (listed message List.mem_cons_self).mem_readFailed
      have unmarked₀ := unmarked message List.mem_cons_self
      refine Safe.call (S := clientSignature)
        (fun _ _ _ _ => ⟨idle, read, unparked message List.mem_cons_self, unmarked₀⟩) ?_
      intro s₁ choice s₁' parked _ _ _ _
      cases parked with
      | error error => exact rfl
      | ok _ =>
          refine Safe.call (S := clientSignature) (fun _ _ _ _ => ⟨rfl, read, unmarked₀⟩) ?_
          intro s₂ choice' s₂' marked _ _ _ _
          cases marked with
          | error error => exact rfl
          | ok _ =>
              refine ih rfl nodup.2 (fun m member => ?_) (fun m member => ?_) fun m member => ?_
              · exact (listed m (List.mem_cons_of_mem _ member)).grow
                  ((List.suffix_cons _ past).trans (List.suffix_cons _ _))
              · have distinct : m.id ≠ message.id := fun same =>
                  nodup.1 (same ▸ List.mem_map_of_mem member)
                have other := unparked m (List.mem_cons_of_mem _ member)
                exact fun listed => (List.mem_cons.mp listed).elim distinct other
              · have distinct : m.id ≠ message.id := fun same =>
                  nodup.1 (same ▸ List.mem_map_of_mem member)
                have other := unmarked m (List.mem_cons_of_mem _ member)
                exact fun listed => (List.mem_cons.mp listed).elim distinct other

theorem safe_sweep_body (task : ClientTask) :
    Safe (serve config) sweepOutline task (SweepEnds task) (body task) [] s := by
  have free {task : ClientTask} (other : ¬ IsSweep task)
      (silent : ∀ past s value, SweepEnds task past s value) :
      Safe (serve config) sweepOutline task (SweepEnds task) (body task) [] s :=
    .of_only (only_body task) (fun _ _ _ _ sweep => (other sweep).elim) silent
  cases task with
  | call call =>
      cases call with
      | sweepFailedToDeadLetter limit =>
          refine Safe.bind (Q := fun past' _ _ => parking past' = none) ?_ fun _ _ _ idle => idle
          refine Safe.bind (safe_failed limit ⟨rfl, rfl⟩) ?_
          rintro past s result ⟨batch, rfl, nodup, listed, unswept⟩
          refine safe_sweepEach unswept.parking nodup listed ?_ ?_
          · rw [unswept.1]
            exact fun _ _ => List.not_mem_nil
          · rw [unswept.2]
            exact fun _ _ => List.not_mem_nil
      | failed limit =>
          refine Safe.bind (safe_failed limit ⟨rfl, rfl⟩) ?_
          rintro past s result ⟨batch, rfl, -, listed, -⟩
          exact ⟨batch, rfl, listed⟩
      | _ => exact free id fun _ _ _ => trivial
  | lane messages => exact free id fun _ _ _ => trivial

variable {C : ClientPool → Action ClientChoice ClientArrival → Prop} {lease : ChronoDuration}
  {p : ClientPool}

theorem sweepOutline_of_reaches (reached : (system config).Reaches C (initial lease) p) :
    sweepOutline.Holds (system config) SweepEnds p := by
  refine Outline.holds_of_reaches (fun _ _ => trivial) (fun _ _ => trivial) ?_ ?_ ?_ reached
  · exact ⟨trivial, fun i t found => (by cases found)⟩
  · intro q i t op next choice s' reply _ _ _ _ _ _
    exact ⟨trivial, trivial, fun _ _ _ _ => trivial⟩
  · intro q arrival s' args _ _ _ _
    exact ⟨trivial, fun _ _ => trivial, fun task _ => safe_sweep_body task⟩

end Outline

/-! ## Sweeps that keep apart -/

/-- No client marks messages dead-lettered on its own. -/
def OnlySweepsMark : Action ClientChoice ClientArrival → Prop
  | .arrive (.call (.markDeadLettered _)) => False
  | _ => True

instance : DecidablePred OnlySweepsMark
  | .arrive (.call (.markDeadLettered _)) => .isFalse id
  | .arrive (.call (.pending _)) | .arrive (.call (.failed _)) | .arrive (.call (.operation _))
  | .arrive (.call (.dispatchPending _)) | .arrive (.call (.sweepFailedToDeadLetter _))
  | .arrive (.insert _) | .arrive (.nextLane _) | .step _ _ => .isTrue trivial

/-- The row of `id` has the status. -/
def HasStatus (s : ClientShared) (id : Uuid) (status : OutboxStatus) : Prop :=
  ∃ row ∈ s.repo.get id, row.status = status

instance (s : ClientShared) (id : Uuid) (status : OutboxStatus) :
    Decidable (HasStatus s id status) :=
  inferInstanceAs (Decidable (∃ row ∈ s.repo.get id, row.status = status))

/-- No message is inserted as dead-lettered. -/
def InsertsUnswept : Action ClientChoice ClientArrival → Prop
  | .arrive (.insert message) => message.status ≠ .deadLettered
  | _ => True

instance : DecidablePred InsertsUnswept
  | .arrive (.insert message) => inferInstanceAs (Decidable (message.status ≠ .deadLettered))
  | .arrive (.call _) | .arrive (.nextLane _) | .step _ _ => .isTrue trivial

/-- Messages are inserted under fresh ids and not as dead-lettered, and only sweeps
dead-letter them. -/
def Ordinary (p : ClientPool) (action : Action ClientChoice ClientArrival) : Prop :=
  InsertsFresh p action ∧ InsertsUnswept action ∧ OnlySweepsMark action

instance (p : ClientPool) : DecidablePred (Ordinary p) := fun action =>
  inferInstanceAs (Decidable (InsertsFresh p action ∧ InsertsUnswept action ∧
    OnlySweepsMark action))

/-- Some sweep marked `id` dead-lettered. -/
def MarkedBefore (id : Uuid) (trace : List ClientEntry) : Prop :=
  ∃ entry ∈ trace, markedId entry.event = some id

instance (id : Uuid) (trace : List ClientEntry) : Decidable (MarkedBefore id trace) :=
  inferInstanceAs (Decidable (∃ entry ∈ trace, markedId entry.event = some id))

/-- When a sweep reads a failed row, no other is about to park it, and a message that was
dead-lettered does not fail again. -/
def KeepsApart (p : ClientPool) (a : ClientTask) : ClientOp → Prop
  | .visit key => IsSweep a → HasStatus p.shared key .failed → ∀ u ∈ p.tasks, ¬ AboutToPark key u
  | .dispatch (.markFailed id _) => ¬ MarkedBefore id p.trace
  | _ => True

instance (p : ClientPool) (a : ClientTask) : DecidablePred (KeepsApart p a)
  | .visit key => inferInstanceAs (Decidable (IsSweep a → HasStatus p.shared key .failed →
      ∀ u ∈ p.tasks, ¬ AboutToPark key u))
  | .dispatch (.markFailed id _) => inferInstanceAs (Decidable (¬ MarkedBefore id p.trace))
  | .dispatch (.recordAttempt _) | .dispatch (.publish _) | .dispatch (.markPublished _)
  | .dispatch (.decideFor _ _) | .dispatch (.scheduleRetry _ _) | .dispatch (.yield _ _)
  | .utcNow | .iter | .claim _ _ | .deadLetter _ _ | .markDeadLettered _ | .spawn _ =>
      .isTrue trivial

/-- What every operation about to be performed satisfies. -/
def Performing (P : ClientPool → ClientTask → ClientOp → Prop) (p : ClientPool) :
    Action ClientChoice ClientArrival → Prop
  | .arrive _ => True
  | .step i _ => ∀ t ∈ p.tasks[i]?, ∀ op ∈ t.rest.awaited, P p t.args op

instance (P : ClientPool → ClientTask → ClientOp → Prop) [∀ p a, DecidablePred (P p a)]
    (p : ClientPool) : DecidablePred (Performing P p)
  | .arrive _ => .isTrue trivial
  | .step i _ =>
      inferInstanceAs (Decidable (∀ t ∈ p.tasks[i]?, ∀ op ∈ t.rest.awaited, P p t.args op))

theorem Performing.holds {P : ClientPool → ClientTask → ClientOp → Prop} {p : ClientPool} {i : ℕ}
    {choice : ClientChoice} {t : Async.Task clientSignature ClientChoice ClientTask ClientReturn}
    {op : ClientOp} {next : op.Reply → ClientM ClientReturn}
    (side : Performing P p (.step i choice)) (found : p.tasks[i]? = some t)
    (awaits : t.rest = .await op next) : P p t.args op :=
  side t found op (by rw [awaits]; rfl)

/-- Every step keeps the sweeps apart. -/
def SweepsApart (p : ClientPool) (action : Action ClientChoice ClientArrival) : Prop :=
  Ordinary p action ∧ Performing KeepsApart p action

instance (p : ClientPool) : DecidablePred (SweepsApart p) := fun action =>
  inferInstanceAs (Decidable (Ordinary p action ∧ Performing KeepsApart p action))

/-- The records of the dead-letter queue that come from the row of `id`. -/
def contributed (s : ClientShared) (id : Uuid) : ℕ :=
  s.deadLetters.countP fun record => decide (record.1 = id)

section Apart

variable {config : DispatchConfig} {lease : ChronoDuration} {p q : ClientPool} {s s' : ClientShared}
  {choice : ClientChoice} {op : ClientOp} {reply : op.Reply} {id : Uuid} {i j k : ℕ}
  {t : Async.Task clientSignature ClientChoice ClientTask ClientReturn}
  {C : ClientPool → Action ClientChoice ClientArrival → Prop}

/-! ### What one operation changes -/

/-- The queue grows by what is parked. -/
theorem contributed_serve (served : serve config s choice op = some (s', reply)) :
    contributed s' id = contributed s id +
      if parkedId ⟨choice, op, reply⟩ = some id then 1 else 0 := by
  cases op with
  | deadLetter source reason =>
      simp only [serve] at served
      split at served
      · cases served
        rfl
      · cases served
        simp only [contributed, List.countP_append, List.countP_singleton, parkedId,
          Option.some.injEq, decide_eq_true_eq]
  | dispatch op =>
      obtain ⟨out, -, same⟩ := Option.map_eq_some_iff.mp served
      cases same
      rfl
  | iter =>
      simp only [serve] at served
      split at served
      · cases served
        rfl
      · cases served
  | _ =>
      cases served
      rfl

/-- Only `mark_dead_lettered` dead-letters a row. -/
theorem deadLettered_of_serve (served : serve config s choice op = some (s', reply))
    (dead : HasStatus s' id .deadLettered) :
    HasStatus s id .deadLettered ∨ op = .markDeadLettered id := by
  obtain ⟨row', found', status⟩ := dead
  rcases (serve_oneRow served).2 id with same | ⟨row, after, found, stored, step⟩
  · exact .inl ⟨row', same ▸ found', status⟩
  · cases stored.symm.trans found'
    cases step with
    | published => cases status
    | failed => cases status
    | deadLettered => exact .inr rfl
    | _ => exact .inl ⟨row, found, status⟩

/-- The row is stored and is not failed. -/
def NotFailed (s : ClientShared) (id : Uuid) : Prop :=
  ∃ row, s.repo.get id = some row ∧ row.status ≠ .failed

/-- Only `mark_failed` fails a row. -/
theorem NotFailed.serve (sound : NotFailed s id)
    (served : serve config s choice op = some (s', reply))
    (other : ∀ error, op ≠ .dispatch (.markFailed id error)) : NotFailed s' id := by
  obtain ⟨row, found, status⟩ := sound
  rcases (serve_oneRow served).2 id with same | ⟨before, after, found', stored, step⟩
  · exact ⟨row, same.trans found, status⟩
  · cases found.symm.trans found'
    refine ⟨after, stored, ?_⟩
    cases step with
    | published => exact nofun
    | failed => exact (other _ rfl).elim
    | deadLettered => exact nofun
    | _ => exact status

theorem markDeadLettered_stored {row : OutboxMessage} {reply : Except OutboxError Unit}
    (found : s.repo.get id = some row)
    (served : serve config s choice (.markDeadLettered id) = some (s', reply)) :
    NotFailed s' id := by
  cases served
  have same : row.id = id := InMemoryOutboxRepository.id_of_get found
  refine ⟨{ row with status := .deadLettered, updatedAt := choice.now }, ?_, nofun⟩
  simp only [InMemoryOutboxRepository.markDeadLettered, InMemoryOutboxRepository.update_eq found]
  rw [InMemoryOutboxRepository.get_write, if_pos same.symm]

/-- What was read as failed was a failed row. -/
theorem hasStatus_of_readFailed (served : serve config s choice op = some (s', reply))
    (read : readFailed ⟨choice, op, reply⟩ = some id) :
    op = .visit id ∧ HasStatus s id .failed := by
  cases op with
  | visit key =>
      cases served
      cases found : s.repo.get key with
      | none =>
          rw [found] at read
          cases read
      | some row =>
          rw [found] at read
          simp only [readFailed, Option.ite_none_right_eq_some, Option.some.injEq] at read
          obtain ⟨status, same⟩ := read
          have keyed : row.id = key := InMemoryOutboxRepository.id_of_get found
          rw [← same, keyed]
          exact ⟨rfl, row, found, status⟩
  | _ => cases read

/-! ### Which tasks park -/

/-- The task with number `i` is about to park `id`. -/
def Parker (p : ClientPool) (id : Uuid) (i : ℕ) : Prop :=
  ∃ t, p.tasks[i]? = some t ∧ AboutToPark id t

/-- The sweep with number `i` parked `id` and marks it next. -/
def Parking (p : ClientPool) (id : Uuid) (i : ℕ) : Prop :=
  ∃ t, p.tasks[i]? = some t ∧ IsSweep t.args ∧ parking t.past = some id

/-- A sweep that parked is about to mark. -/
theorem Parking.parker (reached : (system config).Reaches C (initial lease) p)
    (parks : Parking p id i) : Parker p id i := by
  obtain ⟨t, found, sweep, parked⟩ := parks
  have holds := sweepOutline_of_reaches reached
  refine ⟨t, found, sweep, ?_⟩
  cases rest : t.rest with
  | ret value =>
      obtain ⟨s, -, ends⟩ := holds.post_of_ret found rest
      generalize t.args = a at sweep ends
      cases a with
      | call call =>
          cases call with
          | sweepFailedToDeadLetter limit => cases ends.symm.trans parked
          | _ => exact sweep.elim
      | lane messages => exact sweep.elim
  | await op next =>
      have ready : SweepReady t.past op := holds.pre found rest sweep
      refine ⟨fun finished => ?_, ?_⟩
      · rw [Async.Task.Finished, rest] at finished
        exact finished
      · cases op with
        | markDeadLettered id' =>
            cases ready.1.symm.trans parked
            exact ready.2
        | deadLetter source reason => cases ready.1.symm.trans parked
        | _ => cases ready.symm.trans parked

theorem Parker.start {shared : ClientShared} {args : List ClientTask}
    (after : Parker (p.start body shared args) id k) : Parker p id k := by
  obtain ⟨t, found, about⟩ := after
  rcases Pool.getElem?_start found with old | ⟨-, a, -, rfl⟩
  · exact ⟨t, old, about⟩
  · exact (List.not_mem_nil about.2.2.1).elim

theorem Parking.of_start {shared : ClientShared} {args : List ClientTask}
    (after : Parking (p.start body shared args) id k) : Parking p id k := by
  obtain ⟨t, found, sweep, parked⟩ := after
  rcases Pool.getElem?_start found with old | ⟨-, a, -, rfl⟩
  · exact ⟨t, old, sweep, parked⟩
  · cases parked

theorem Parking.start {shared : ClientShared} {args : List ClientTask} (before : Parking p id k) :
    Parking (p.start body shared args) id k := by
  obtain ⟨t, found, sweep, parked⟩ := before
  refine ⟨t, ?_, sweep, parked⟩
  rw [Pool.start_tasks, List.getElem?_append_left (List.getElem?_eq_some_iff.mp found).1, found]

section Advance

variable {shared : ClientShared} {next : op.Reply → ClientM ClientReturn}
  (found : p.tasks[i]? = some t) (awaits : t.rest = .await op next)

include found

/-- A task becomes a parker by reading the row as failed, and ceases to be one by marking it. -/
theorem Parker.advance (awaits : t.rest = .await op next)
    (after : Parker (p.advance i t ⟨choice, op, reply⟩ shared (next reply)) id k) :
    (Parker p id k ∧ (k = i → markedId ⟨choice, op, reply⟩ ≠ some id)) ∨
      (k = i ∧ IsSweep t.args ∧ readFailed ⟨choice, op, reply⟩ = some id) := by
  obtain ⟨u, at_k, about⟩ := after
  rcases Pool.getElem?_advance found at_k with ⟨rfl, rfl⟩ | ⟨distinct, old⟩
  · obtain ⟨sweep, -, read, unmarked⟩ := about
    rw [List.filterMap_cons] at read unmarked
    have unmarked' : markedId ⟨choice, op, reply⟩ ≠ some id ∧ id ∉ t.past.filterMap markedId := by
      split at unmarked
      · next none =>
        refine ⟨fun same => ?_, unmarked⟩
        cases none.symm.trans same
      · next other some =>
        refine ⟨fun same => ?_, fun listed => unmarked (List.mem_cons_of_mem _ listed)⟩
        cases some.symm.trans same
        exact unmarked List.mem_cons_self
    have unfinished : ¬ t.Finished := by
      rw [Async.Task.Finished, awaits]
      exact fun finished => finished
    split at read
    · exact .inl ⟨⟨t, found, sweep, unfinished, read, unmarked'.2⟩, fun _ => unmarked'.1⟩
    · next other here =>
      rcases List.mem_cons.mp read with rfl | earlier
      · exact .inr ⟨rfl, sweep, here⟩
      · exact .inl ⟨⟨t, found, sweep, unfinished, earlier, unmarked'.2⟩, fun _ => unmarked'.1⟩
  · exact .inl ⟨⟨u, old, about⟩, fun same => (distinct same).elim⟩

theorem Parking.of_advance {rest : ClientM ClientReturn}
    (after : Parking (p.advance i t ⟨choice, op, reply⟩ shared rest) id k) :
    (k ≠ i ∧ Parking p id k) ∨ (k = i ∧ parkedId ⟨choice, op, reply⟩ = some id) := by
  obtain ⟨u, at_k, sweep, parked⟩ := after
  rcases Pool.getElem?_advance found at_k with ⟨rfl, rfl⟩ | ⟨distinct, old⟩
  · exact .inr ⟨rfl, parked⟩
  · exact .inl ⟨distinct, u, old, sweep, parked⟩

theorem parking_advance {event : ClientEvent} {rest : ClientM ClientReturn}
    (sweep : IsSweep t.args) (parks : parkedId event = some id) :
    Parking (p.advance i t event shared rest) id i :=
  ⟨_, List.getElem?_set_self (List.getElem?_eq_some_iff.mp found).1, sweep, parks⟩

omit found in
theorem Parking.advance {event : ClientEvent} {rest : ClientM ClientReturn}
    (before : Parking p id k) (distinct : k ≠ i) : Parking (p.advance i t event shared rest) id k := by
  obtain ⟨u, at_k, sweep, parked⟩ := before
  exact ⟨u, by rw [Pool.advance_tasks, List.getElem?_set_ne (Ne.symm distinct), at_k], sweep, parked⟩

end Advance

/-! ### Reads and marks -/

/-- Only sweeps mark, and what they mark they just parked. -/
theorem parking_of_marks (reached : (system config).Reaches C (initial lease) p)
    (side : ∀ {p action}, C p action → OnlySweepsMark action) (found : p.tasks[i]? = some t)
    {next : Except OutboxError Unit → ClientM ClientReturn}
    (awaits : t.rest = .await (.markDeadLettered id) next) : Parking p id i := by
  have sweep : IsSweep t.args := by
    have performs : Performs t.args (.markDeadLettered id) :=
      reached.only_op rfl only_body found awaits
    have ordinary : ∀ t ∈ p.tasks, ∀ id, t.args ≠ .call (.markDeadLettered id) := by
      refine reached.forall_args (Q := fun a => ∀ id, a ≠ .call (.markDeadLettered id)) rfl ?_
      rintro q arrival shared args allowed arrived a among id rfl
      have only := side allowed
      cases arrival with
      | insert message =>
          cases arrived
          cases among
      | call call =>
          cases arrived
          cases List.mem_singleton.mp among
          exact only
      | nextLane index =>
          obtain ⟨lane, -, same⟩ := Option.map_eq_some_iff.mp arrived
          cases same
          cases List.mem_singleton.mp among
    have direct := ordinary t (List.mem_of_getElem? found)
    generalize t.args = a at performs direct
    cases a with
    | call call =>
        cases call with
        | sweepFailedToDeadLetter limit => trivial
        | markDeadLettered id' => exact direct id' rfl
        | _ => simp [Performs] at performs
    | lane messages => simp [Performs] at performs
  have ready : SweepReady t.past (.markDeadLettered id) :=
    (sweepOutline_of_reaches reached).pre found awaits sweep
  exact ⟨t, found, sweep, ready.1⟩

/-- Only sweeps park, and they park what they are about to. -/
theorem parker_of_parks (reached : (system config).Reaches C (initial lease) p)
    (found : p.tasks[i]? = some t) {source : OutboxMessage} {reason : String}
    {next : Except DeadLetterError Unit → ClientM ClientReturn}
    (awaits : t.rest = .await (.deadLetter source reason) next) :
    IsSweep t.args ∧ Parker p source.id i ∧ ¬ Parking p source.id i := by
  have sweep : IsSweep t.args := by
    have performs : Performs t.args (.deadLetter source reason) :=
      reached.only_op rfl only_body found awaits
    generalize t.args = a at performs
    cases a with
    | call call =>
        cases call with
        | sweepFailedToDeadLetter limit => trivial
        | _ => simp [Performs] at performs
    | lane messages => simp [Performs] at performs
  obtain ⟨idle, read, -, unmarked⟩ : SweepReady t.past (.deadLetter source reason) :=
    (sweepOutline_of_reaches reached).pre found awaits sweep
  refine ⟨sweep, ⟨t, found, sweep, ?_, read, unmarked⟩, ?_⟩
  · rw [Async.Task.Finished, awaits]
    exact fun finished => finished
  · rintro ⟨u, at_i, -, parked⟩
    cases found.symm.trans at_i
    cases idle.symm.trans parked

/-- A row that was read is stored. -/
theorem stored_of_parker (reached : (system config).Reaches C (initial lease) p)
    (side : ∀ {p action}, C p action → InsertsFresh p action) (parker : Parker p id i) :
    ∃ row, p.shared.repo.get id = some row := by
  have all : ∀ t ∈ p.tasks, id ∈ t.past.filterMap readFailed →
      ∃ row, p.shared.repo.get id = some row := by
    refine reached.invariant (P := fun p : ClientPool => ∀ t ∈ p.tasks,
      id ∈ t.past.filterMap readFailed → ∃ row, p.shared.repo.get id = some row)
      (fun t started => (List.not_mem_nil started).elim) ?_
    intro q r action _ all allowed stepped t started read
    obtain ⟨arrival, shared, args, rfl, arrived, rfl⟩ |
      ⟨i, choice, u, op, next, shared, reply, rfl, at_i, awaits, served, rfl⟩ :=
      System.step_cases stepped
    · rcases Pool.mem_start started with old | ⟨a, -, rfl⟩
      · obtain ⟨row, found⟩ := all t old read
        exact ⟨row, get_arrive (side allowed) arrived found⟩
      · cases read
    · have kept {row : OutboxMessage} (found : q.shared.repo.get id = some row) :
          ∃ row, shared.repo.get id = some row := by
        obtain ⟨row', found', -⟩ := retains_serve served id row found
        exact ⟨row', found'⟩
      rcases List.mem_or_eq_of_mem_set started with old | rfl
      · obtain ⟨row, found⟩ := all t old read
        exact kept found
      · obtain ⟨event, member, failed⟩ := List.mem_filterMap.mp read
        rcases List.mem_cons.mp member with rfl | earlier
        · obtain ⟨-, row, found, -⟩ := hasStatus_of_readFailed served failed
          exact kept found
        · obtain ⟨row, found⟩ := all u (List.mem_of_getElem? at_i)
            (List.mem_filterMap.mpr ⟨event, earlier, failed⟩)
          exact kept found
  obtain ⟨t, found, -, -, read, -⟩ := parker
  exact all t (List.mem_of_getElem? found) read

/-! ### The life of one message -/

/-- How far the sweeps are with `id`: nobody parked it and at most one is about to; one parked it
and marks it next; it was marked. -/
inductive Swept (p : ClientPool) (id : Uuid) : Prop where
  | untouched (count : contributed p.shared id = 0) (alive : ¬ HasStatus p.shared id .deadLettered)
      (idle : ∀ i, ¬ Parking p id i) (single : ∀ i j, Parker p id i → Parker p id j → i = j)
  | parked (j : ℕ) (count : contributed p.shared id = 1)
      (alive : ¬ HasStatus p.shared id .deadLettered) (parks : Parking p id j)
      (single : ∀ i, Parker p id i → i = j)
  | closed (count : contributed p.shared id = 1) (marked : MarkedBefore id p.trace)
      (sound : NotFailed p.shared id) (idle : ∀ i, ¬ Parker p id i)

/-- An arrival: the new row is not dead-lettered, the new tasks have read nothing. -/
theorem Swept.arrive (swept : Swept p id) {arrival : ClientArrival} {args : List ClientTask}
    (side : Ordinary p (.arrive arrival))
    (arrived : OutboxClients.arrive p.shared arrival = some (s', args)) :
    Swept (p.start body s' args) id := by
  obtain ⟨fresh, unswept, -⟩ := side
  have count : contributed s' id = contributed p.shared id := by
    cases arrival with
    | insert message =>
        cases arrived
        rfl
    | call call =>
        cases arrived
        rfl
    | nextLane index =>
        obtain ⟨lane, -, same⟩ := Option.map_eq_some_iff.mp arrived
        cases same
        rfl
  have alive (before : ¬ HasStatus p.shared id .deadLettered) :
      ¬ HasStatus s' id .deadLettered := by
    rintro ⟨row, found, status⟩
    cases arrival with
    | insert message =>
        cases arrived
        rw [Option.mem_def, InMemoryOutboxRepository.insert, InMemoryOutboxRepository.get_write]
          at found
        split at found
        · cases found
          exact unswept status
        · exact before ⟨row, found, status⟩
    | call call =>
        cases arrived
        exact before ⟨row, found, status⟩
    | nextLane index =>
        obtain ⟨lane, -, same⟩ := Option.map_eq_some_iff.mp arrived
        cases same
        exact before ⟨row, found, status⟩
  cases swept with
  | untouched none alive₀ idle single =>
      refine .untouched (count.trans none) (alive alive₀) (fun i parks => ?_) fun i j first second =>
        single i j first.start second.start
      exact idle i parks.of_start
  | parked j one alive₀ parks single =>
      exact .parked j (count.trans one) (alive alive₀) parks.start fun i parker =>
        single i parker.start
  | closed one marked sound idle =>
      obtain ⟨row, found, status⟩ := sound
      exact .closed (count.trans one) marked ⟨row, get_arrive fresh arrived found, status⟩
        fun i parker => idle i parker.start

theorem exists_of_parkedId {event : ClientEvent} (parks : parkedId event = some id) :
    ∃ choice source reason, source.id = id ∧ event = ⟨choice, .deadLetter source reason, .ok ()⟩ := by
  obtain ⟨choice, op, reply⟩ := event
  cases op with
  | deadLetter source reason =>
      cases reply with
      | error error => cases parks
      | ok _ =>
          cases parks
          exact ⟨choice, source, reason, rfl, rfl⟩
  | _ => cases parks

theorem exists_of_markedId {event : ClientEvent} (marks : markedId event = some id) :
    ∃ choice reply, event = ⟨choice, .markDeadLettered id, reply⟩ := by
  obtain ⟨choice, op, reply⟩ := event
  cases op with
  | markDeadLettered id' =>
      cases marks
      exact ⟨choice, reply, rfl⟩
  | _ => cases marks

/-- A sweep that parked does nothing else before it marks. -/
theorem marks_of_parking (reached : (system config).Reaches C (initial lease) p)
    {next : op.Reply → ClientM ClientReturn} (found : p.tasks[i]? = some t)
    (awaits : t.rest = .await op next) (parks : Parking p id i) :
    markedId ⟨choice, op, reply⟩ = some id := by
  obtain ⟨u, at_i, sweep, parked⟩ := parks
  cases found.symm.trans at_i
  have ready : SweepReady t.past op := (sweepOutline_of_reaches reached).pre found awaits sweep
  cases op with
  | markDeadLettered id' =>
      cases ready.1.symm.trans parked
      rfl
  | deadLetter source reason => cases ready.1.symm.trans parked
  | _ => cases ready.symm.trans parked

section Step

variable {shared : ClientShared} {next : op.Reply → ClientM ClientReturn}
  (reached : (system config).Reaches SweepsApart (initial lease) p) (swept : Swept p id)
  (found : p.tasks[i]? = some t) (awaits : t.rest = .await op next)
  (served : serve config p.shared choice op = some (shared, reply))

include reached swept found awaits served

/-- A sweep parks `id`: nobody has, and it was the only one about to. -/
theorem Swept.parks (parks : parkedId ⟨choice, op, reply⟩ = some id) :
    Swept (p.advance i t ⟨choice, op, reply⟩ shared (next reply)) id := by
  obtain ⟨choice', source, reason, rfl, same⟩ := exists_of_parkedId parks
  cases same
  obtain ⟨sweep, parker, idle⟩ := parker_of_parks reached found awaits
  cases swept with
  | untouched none alive _ single =>
      refine .parked i ?_ (fun dead => ?_) (parking_advance found sweep parks) fun k after => ?_
      · rw [Pool.advance_shared, contributed_serve served, none, if_pos parks]
      · rcases deadLettered_of_serve served dead with before | marks
        · exact alive before
        · cases marks
      · rcases after.advance found awaits with ⟨before, -⟩ | ⟨same, -⟩
        · exact single k i before parker
        · exact same
  | parked j _ _ parking single =>
      obtain rfl := single i parker
      exact (idle parking).elim
  | closed _ _ _ none => exact (none i parker).elim

/-- A sweep marks `id`: it parked it, and nobody else is about to. -/
theorem Swept.marks (marks : markedId ⟨choice, op, reply⟩ = some id) :
    Swept (p.advance i t ⟨choice, op, reply⟩ shared (next reply)) id := by
  obtain ⟨choice', reply', same⟩ := exists_of_markedId marks
  cases same
  have parking := parking_of_marks reached (fun side => side.1.2.2) found awaits
  have parker := parking.parker reached
  cases swept with
  | untouched _ _ idle _ => exact (idle i parking).elim
  | parked j one _ _ single =>
      obtain rfl := single i parker
      obtain ⟨row, stored⟩ := stored_of_parker reached (fun side => side.1.1) parker
      have answered : serve config p.shared choice (.markDeadLettered id) = some (shared, reply') :=
        served
      refine .closed ?_ ⟨_, List.mem_append_right _ (List.mem_singleton_self _), rfl⟩
        (markDeadLettered_stored stored answered) fun k after => ?_
      · rw [Pool.advance_shared, contributed_serve served, one]
        rfl
      · rcases after.advance found awaits with ⟨before, unmarked⟩ | ⟨-, -, read⟩
        · exact unmarked (single k before) rfl
        · cases read
  | closed _ _ _ none => exact (none i parker).elim

/-- Every other operation leaves `id` where it is. -/
theorem Swept.other (side : SweepsApart p (.step i choice))
    (unparked : parkedId ⟨choice, op, reply⟩ ≠ some id)
    (unmarked : markedId ⟨choice, op, reply⟩ ≠ some id) :
    Swept (p.advance i t ⟨choice, op, reply⟩ shared (next reply)) id := by
  have apart : KeepsApart p t.args op := side.2.holds found awaits
  have count : contributed shared id = contributed p.shared id := by
    rw [contributed_serve served, if_neg unparked]
    rfl
  have alive (before : ¬ HasStatus p.shared id .deadLettered) :
      ¬ HasStatus shared id .deadLettered := by
    intro dead
    rcases deadLettered_of_serve served dead with earlier | rfl
    · exact before earlier
    · exact unmarked rfl
  -- a sweep that reads the row as failed is the only one
  have reads (sweep : IsSweep t.args) (read : readFailed ⟨choice, op, reply⟩ = some id) :
      HasStatus p.shared id .failed ∧ ∀ k, ¬ Parker p id k := by
    obtain ⟨rfl, failed⟩ := hasStatus_of_readFailed served read
    refine ⟨failed, ?_⟩
    rintro k ⟨u, at_k, about⟩
    exact apart sweep failed u (List.mem_of_getElem? at_k) about
  cases swept with
  | untouched none alive₀ idle single =>
      refine .untouched (count.trans none) (alive alive₀) (fun k parks => ?_) fun k l first second => ?_
      · rcases parks.of_advance found with ⟨-, before⟩ | ⟨-, parked⟩
        · exact idle k before
        · exact unparked parked
      · rcases first.advance found awaits with ⟨parker, -⟩ | ⟨rfl, sweep, read⟩
        · rcases second.advance found awaits with ⟨parker', -⟩ | ⟨rfl, sweep, read⟩
          · exact single k l parker parker'
          · exact ((reads sweep read).2 k parker).elim
        · rcases second.advance found awaits with ⟨parker', -⟩ | ⟨rfl, -⟩
          · exact ((reads sweep read).2 l parker').elim
          · rfl
  | parked j one alive₀ parks single =>
      have distinct : j ≠ i := by
        rintro rfl
        exact unmarked (marks_of_parking reached found awaits parks)
      refine .parked j (count.trans one) (alive alive₀) (parks.advance distinct) fun k after => ?_
      rcases after.advance found awaits with ⟨parker, -⟩ | ⟨-, sweep, read⟩
      · exact single k parker
      · exact ((reads sweep read).2 j (parks.parker reached)).elim
  | closed one marked sound idle =>
      refine .closed (count.trans one) ?_ (sound.serve served ?_) fun k after => ?_
      · obtain ⟨entry, member, same⟩ := marked
        exact ⟨entry, List.mem_append_left _ member, same⟩
      · rintro error rfl
        exact apart marked
      · rcases after.advance found awaits with ⟨parker, -⟩ | ⟨-, sweep, read⟩
        · exact idle k parker
        · obtain ⟨row, stored, status⟩ := sound
          obtain ⟨row', stored', failed⟩ := (reads sweep read).1
          cases stored.symm.trans stored'
          exact status failed

end Step

theorem swept_of_reaches (reached : (system config).Reaches SweepsApart (initial lease) p)
    (id : Uuid) : Swept p id := by
  refine reached.invariant (P := fun p => Swept p id) ?_ ?_
  · refine .untouched rfl ?_ ?_ ?_
    · rintro ⟨row, found, -⟩
      cases found
    · rintro i ⟨t, found, -⟩
      cases found
    · rintro i j ⟨t, found, -⟩
      cases found
  · intro q r action before swept side stepped
    obtain ⟨arrival, shared, args, rfl, arrived, rfl⟩ |
      ⟨i, choice, t, op, next, shared, reply, rfl, found, awaits, served, rfl⟩ :=
      System.step_cases stepped
    · exact swept.arrive side.1 arrived
    · by_cases parks : parkedId ⟨choice, op, reply⟩ = some id
      · exact swept.parks before found awaits served parks
      · by_cases marks : markedId ⟨choice, op, reply⟩ = some id
        · exact swept.marks before found awaits served marks
        · exact swept.other before found awaits served side parks marks

/-- Sweeps park each message once, for any number of sweeps with any limits and a dead-letter
queue that may fail at any call: in every run in which no sweep reads a row as failed that
another one in flight is about to park, and no message fails again after it was dead-lettered,
a message contributes at most one record, and exactly one if it is dead-lettered. -/
theorem swept_once (reached : (system config).Reaches SweepsApart (initial lease) p) (id : Uuid) :
    contributed p.shared id ≤ 1 ∧
      (HasStatus p.shared id .deadLettered → contributed p.shared id = 1) := by
  cases swept_of_reaches reached id with
  | untouched count alive _ _ => exact ⟨count.trans_le (Nat.zero_le 1), fun dead => (alive dead).elim⟩
  | parked j count alive _ _ => exact ⟨count.le, fun _ => count⟩
  | closed count _ _ _ => exact ⟨count.le, fun _ => count⟩

end Apart

/-- A dispatcher claims the message, the publisher rejects it, and it is marked failed. -/
def rejected : List (Action ClientChoice ClientArrival) :=
  [.arrive (.insert letter), .arrive (.call (.dispatchPending 5)), .step 0 {},
    .step 0 { order := [1] }, .step 0 {}, .step 0 {}, .step 0 {}, .arrive (.nextLane 0), .step 1 {},
    .step 1 { published := .error (.publishPoisoned "schema") }, .step 1 {}, .step 1 {}, .step 1 {}]

/-- One sweep after the other; the queue is down when the first one parks. -/
def sweptInTurn : List (Action ClientChoice ClientArrival) :=
  rejected ++ [.arrive (.call (.sweepFailedToDeadLetter 5)), .step 2 { order := [1] }, .step 2 {},
    .step 2 { parked := .error (.storage "down") }, .arrive (.call (.sweepFailedToDeadLetter 5)),
    .step 3 { order := [1] }, .step 3 {}, .step 3 { uuid := 7 }, .step 3 {},
    .arrive (.call (.sweepFailedToDeadLetter 5)), .step 4 { order := [1] }, .step 4 {}]

theorem swept_once_inTurn : ∃ p : ClientPool,
    (system threeAttempts).Reaches SweepsApart (initial 10) p ∧
      HasStatus p.shared 1 .deadLettered ∧ contributed p.shared 1 = 1 := by
  have run : (((system threeAttempts).exec (initial 10) sweptInTurn).any fun p =>
      decide (HasStatus p.shared 1 .deadLettered)) = true := by
    decide +kernel
  obtain ⟨p, reached, found⟩ := System.exists_reaches_of_exec
    (C := SweepsApart) (by decide +kernel) run
  have dead := of_decide_eq_true found
  exact ⟨p, reached, dead, (swept_once reached 1).2 dead⟩

/-- Both sweeps list the message before either has parked it. -/
def overlapping : List (Action ClientChoice ClientArrival) :=
  rejected ++ [.arrive (.call (.sweepFailedToDeadLetter 5)),
    .arrive (.call (.sweepFailedToDeadLetter 5)), .step 2 { order := [1] }, .step 3 { order := [1] },
    .step 2 {}, .step 3 {}, .step 2 { uuid := 7 }, .step 2 {}, .step 3 { uuid := 8 }, .step 3 {}]

/-- Two overlapping sweeps park one message twice. -/
theorem swept_twice : ∃ p : ClientPool,
    (system threeAttempts).Reaches Ordinary (initial 10) p ∧ p.Quiescent ∧
      contributed p.shared 1 = 2 := by
  have run : (((system threeAttempts).exec (initial 10) overlapping).any fun p =>
      decide (p.Quiescent ∧ contributed p.shared 1 = 2)) = true := by
    decide +kernel
  obtain ⟨p, reached, found⟩ := System.exists_reaches_of_exec
    (C := Ordinary) (by decide +kernel) run
  obtain ⟨quiescent, twice⟩ := of_decide_eq_true found
  exact ⟨p, reached, quiescent, twice⟩

end OutboxClients

end Pharos

import Pharos.Outbox.Sweep

/-!
# Published messages

`mark_failed` and `mark_dead_lettered` write over any status.  A dispatcher whose lease ran
out still holds the message that another one claimed again and published, and its own outcome
takes the published status back (`published_overwritten`).  A message stays published as long
as no dispatcher fails a published row, and none publishes a message that a sweep in flight has
read as failed and will park (`published_final`).
-/

namespace Pharos

namespace OutboxClients

open Async

/-- The id of the row that was marked published. -/
def publishedId : ClientEvent → Option Uuid
  | ⟨_, .dispatch (.markPublished id), .ok ()⟩ => some id
  | _ => none

/-- `mark_published` was applied to `id`. -/
def PublishedBefore (id : Uuid) (trace : List ClientEntry) : Prop :=
  ∃ entry ∈ trace, publishedId entry.event = some id

instance (id : Uuid) (trace : List ClientEntry) : Decidable (PublishedBefore id trace) :=
  inferInstanceAs (Decidable (∃ entry ∈ trace, publishedId entry.event = some id))

/-- A published row is not failed, and a row is not published that a sweep is about to park. -/
def KeepsPublished (p : ClientPool) (_ : ClientTask) : ClientOp → Prop
  | .dispatch (.markFailed id _) => ¬ HasStatus p.shared id .published
  | .dispatch (.markPublished id) => ∀ u ∈ p.tasks, ¬ AboutToPark id u
  | _ => True

instance (p : ClientPool) (a : ClientTask) : DecidablePred (KeepsPublished p a)
  | .dispatch (.markFailed id _) => inferInstanceAs (Decidable (¬ HasStatus p.shared id .published))
  | .dispatch (.markPublished id) =>
      inferInstanceAs (Decidable (∀ u ∈ p.tasks, ¬ AboutToPark id u))
  | .dispatch (.recordAttempt _) | .dispatch (.publish _) | .dispatch (.decideFor _ _)
  | .dispatch (.scheduleRetry _ _) | .dispatch (.yield _ _) | .visit _ | .utcNow | .iter
  | .claim _ _ | .deadLetter _ _ | .markDeadLettered _ | .spawn _ => .isTrue trivial

/-- Messages are inserted under fresh ids, only sweeps dead-letter them, and no status is
written that takes a published message back. -/
def PublishedKept (p : ClientPool) (action : Action ClientChoice ClientArrival) : Prop :=
  InsertsFresh p action ∧ OnlySweepsMark action ∧ Performing KeepsPublished p action

instance (p : ClientPool) : DecidablePred (PublishedKept p) := fun action =>
  inferInstanceAs (Decidable (InsertsFresh p action ∧ OnlySweepsMark action ∧
    Performing KeepsPublished p action))

section Published

variable {config : DispatchConfig} {lease : ChronoDuration} {p : ClientPool} {s s' : ClientShared}
  {choice : ClientChoice} {op : ClientOp} {reply : op.Reply} {id : Uuid} {i : ℕ}
  {t : Async.Task clientSignature ClientChoice ClientTask ClientReturn}

theorem published_serve (served : serve config s choice op = some (s', reply))
    (marks : publishedId ⟨choice, op, reply⟩ = some id) :
    op = .dispatch (.markPublished id) ∧ HasStatus s' id .published := by
  cases op with
  | dispatch op =>
      cases op with
      | markPublished id' =>
          simp only [serve, OutboxDispatcher.serve, Option.map_some, Option.some.injEq,
            Prod.mk.injEq] at served
          obtain ⟨rfl, answered⟩ := served
          cases found : s.repo.get id' with
          | none =>
              simp only [InMemoryOutboxRepository.markPublished, InMemoryOutboxRepository.update,
                found] at answered
              cases answered
              cases marks
          | some row =>
              simp only [InMemoryOutboxRepository.markPublished,
                InMemoryOutboxRepository.update_eq found] at answered ⊢
              cases answered
              cases marks
              have same : row.id = id := InMemoryOutboxRepository.id_of_get found
              refine ⟨rfl, row.markPublished choice.now, ?_, rfl⟩
              rw [Option.mem_def, InMemoryOutboxRepository.get_write]
              exact if_pos same.symm
      | _ => cases marks
  | _ => cases marks

/-- Only a failure or a dead-letter mark takes the status back. -/
theorem HasStatus.published_serve (published : HasStatus s id .published)
    (served : serve config s choice op = some (s', reply))
    (sound : ∀ error, op ≠ .dispatch (.markFailed id error)) (alive : op ≠ .markDeadLettered id) :
    HasStatus s' id .published := by
  obtain ⟨row, found, status⟩ := published
  rcases (serve_oneRow served).2 id with same | ⟨before, after, found', stored, step⟩
  · exact ⟨row, same.trans found, status⟩
  · cases found.symm.trans found'
    refine ⟨after, stored, ?_⟩
    cases step with
    | published => rfl
    | failed => exact (sound _ rfl).elim
    | deadLettered => exact (alive rfl).elim
    | _ => exact status

/-- Once published: the row says so, and no sweep is about to park it. -/
def Settled (p : ClientPool) (id : Uuid) : Prop :=
  HasStatus p.shared id .published ∧ ∀ k, ¬ Parker p id k

/-- A settled message is not read as failed. -/
theorem Settled.readFailed_ne (settled : Settled p id)
    (served : serve config p.shared choice op = some (s', reply)) :
    readFailed ⟨choice, op, reply⟩ ≠ some id := by
  intro read
  obtain ⟨row, found, published⟩ := settled.1
  obtain ⟨-, row', found', failed⟩ := hasStatus_of_readFailed served read
  cases found.symm.trans found'
  cases published.symm.trans failed

section Step

variable {next : op.Reply → ClientM ClientReturn}
  (reached : (system config).Reaches PublishedKept (initial lease) p)
  (found : p.tasks[i]? = some t) (awaits : t.rest = .await op next)
  (served : serve config p.shared choice op = some (s', reply))

include reached found awaits

/-- A settled message is not parked. -/
theorem Settled.parkedId_ne (settled : Settled p id) :
    parkedId ⟨choice, op, reply⟩ ≠ some id := by
  intro parks
  obtain ⟨choice', source, reason, rfl, same⟩ := exists_of_parkedId parks
  cases same
  exact settled.2 i (parker_of_parks reached found awaits).2.1

include served

theorem Settled.step (settled : Settled p id) (side : PublishedKept p (.step i choice)) :
    Settled (p.advance i t ⟨choice, op, reply⟩ s' (next reply)) id := by
  have kept : KeepsPublished p t.args op := side.2.2.holds found awaits
  refine ⟨settled.1.published_serve served ?_ ?_, fun k after => ?_⟩
  · rintro error rfl
    exact kept settled.1
  · rintro rfl
    have parking := parking_of_marks reached (fun side => side.2.1) found awaits
    exact settled.2 i (parking.parker reached)
  · rcases after.advance found awaits with ⟨before, -⟩ | ⟨-, -, read⟩
    · exact settled.2 k before
    · exact settled.readFailed_ne served read

omit reached in
/-- `mark_published` settles the message: no sweep is about to park it. -/
theorem settled_of_marks (side : PublishedKept p (.step i choice))
    (marks : publishedId ⟨choice, op, reply⟩ = some id) :
    Settled (p.advance i t ⟨choice, op, reply⟩ s' (next reply)) id := by
  have kept : KeepsPublished p t.args op := side.2.2.holds found awaits
  obtain ⟨rfl, published⟩ := published_serve served marks
  refine ⟨published, fun k after => ?_⟩
  rcases after.advance found awaits with ⟨⟨u, at_k, about⟩, -⟩ | ⟨-, -, read⟩
  · exact kept u (List.mem_of_getElem? at_k) about
  · cases read

end Step

theorem settled_of_reaches (reached : (system config).Reaches PublishedKept (initial lease) p)
    (published : PublishedBefore id p.trace) : Settled p id := by
  revert published
  refine reached.invariant (P := fun p => PublishedBefore id p.trace → Settled p id) ?_ ?_
  · rintro ⟨entry, member, -⟩
    cases member
  · rintro q r action before settled side stepped ⟨entry, member, marks⟩
    obtain ⟨arrival, shared, args, rfl, arrived, rfl⟩ |
      ⟨i, choice, t, op, next, shared, reply, rfl, found, awaits, served, rfl⟩ :=
      System.step_cases stepped
    · obtain ⟨⟨row, stored, status⟩, idle⟩ := settled ⟨entry, member, marks⟩
      exact ⟨⟨row, get_arrive side.1 arrived stored, status⟩, fun k after => idle k after.start⟩
    · rw [Pool.advance_trace, List.mem_append, List.mem_singleton] at member
      rcases member with old | rfl
      · exact (settled ⟨entry, old, marks⟩).step before found awaits served side
      · exact settled_of_marks found awaits served side marks

/-- What was published before is neither read as failed nor parked. -/
def Unreported (earlier : List ClientEntry) (entry : ClientEntry) : Prop :=
  ∀ id, PublishedBefore id earlier →
    readFailed entry.event ≠ some id ∧ parkedId entry.event ≠ some id

theorem unreported_of_reaches
    (reached : (system config).Reaches PublishedKept (initial lease) p) :
    Throughout Unreported p.trace := by
  refine reached.invariant (P := fun p => Throughout Unreported p.trace) (throughout_nil _) ?_
  intro q r action before all side stepped
  obtain ⟨arrival, shared, args, rfl, arrived, rfl⟩ |
    ⟨i, choice, t, op, next, shared, reply, rfl, found, awaits, served, rfl⟩ :=
    System.step_cases stepped
  · exact all
  · refine all.concat fun id published => ?_
    have settled := settled_of_reaches before published
    exact ⟨settled.readFailed_ne served, settled.parkedId_ne before found awaits⟩

/-- The call with number `i` read the row as `m` before `m` was published. -/
def ReadUnpublished (p : ClientPool) (i : ℕ) (m : OutboxMessage) : Prop :=
  ∃ earlier entry later choice, p.trace = earlier ++ entry :: later ∧ entry.task = i ∧
    entry.event = ⟨choice, .visit m.id, some m⟩ ∧ ¬ PublishedBefore m.id earlier

/-- Publication is final, for any number of dispatchers, sweeps and readers, any clock and any
publisher: in every run in which no published row is marked failed, and no row is marked
published that a sweep in flight has read as failed and not yet marked, a message to which
`mark_published` was applied is stored as published from then on, it is neither read as failed
nor parked any more, and `failed` lists only messages it read before they were published. -/
theorem published_final (reached : (system config).Reaches PublishedKept (initial lease) p) :
    (∀ id, PublishedBefore id p.trace → HasStatus p.shared id .published) ∧
    Throughout Unreported p.trace ∧
    (∀ i t limit value, p.tasks[i]? = some t → t.args = .call (.failed limit) →
      t.rest = .ret value → ∃ batch, value = .listed (.ok batch) ∧
        ∀ m ∈ batch, ReadUnpublished p i m) := by
  have unreported := unreported_of_reaches reached
  refine ⟨fun id published => (settled_of_reaches reached published).1, unreported, ?_⟩
  intro i t limit value found called returned
  obtain ⟨s, -, ends⟩ := (sweepOutline_of_reaches reached).post_of_ret found returned
  rw [called] at ends
  obtain ⟨batch, rfl, listed⟩ := ends
  refine ⟨batch, rfl, fun m member => ?_⟩
  obtain ⟨failed, choice, visited⟩ := listed m member
  obtain ⟨entry, inTrace, task, -, same⟩ := reached.mem_trace rfl rfl found visited
  obtain ⟨earlier, later, split⟩ := List.append_of_mem inTrace
  refine ⟨earlier, entry, later, choice, split, task, same, fun published => ?_⟩
  have unread := (unreported earlier entry later split m.id published).1
  rw [same] at unread
  exact unread (if_pos failed)

end Published

/-- The second dispatcher claims the message when the lease of the first has ended, and publishes
it; the lane of the first has only recorded its attempt. -/
def reclaimed : List (Action ClientChoice ClientArrival) :=
  [.arrive (.insert letter), .arrive (.call (.dispatchPending 5)), .step 0 {},
    .step 0 { order := [1] }, .step 0 {}, .step 0 {}, .step 0 {}, .arrive (.nextLane 0), .step 1 {},
    .arrive (.call (.dispatchPending 5)), .step 2 { now := 10 }, .step 2 { order := [1] }, .step 2 {},
    .step 2 {}, .step 2 {}, .arrive (.nextLane 0), .step 3 {}, .step 3 {}, .step 3 { now := 11 }]

/-- The first lane publishes too; a reader and a sweep find nothing failed. -/
def bothPublish : List (Action ClientChoice ClientArrival) :=
  reclaimed ++ [.step 1 {}, .step 1 { now := 12 }, .arrive (.call (.failed 5)),
    .step 4 { order := [1] }, .step 4 {}, .arrive (.call (.sweepFailedToDeadLetter 5)),
    .step 5 { order := [1] }, .step 5 {}]

theorem published_final_bothPublish : ∃ p : ClientPool,
    (system threeAttempts).Reaches PublishedKept (initial 10) p ∧
      PublishedBefore 1 p.trace ∧ HasStatus p.shared 1 .published ∧
      Throughout Unreported p.trace := by
  have run : (((system threeAttempts).exec (initial 10) bothPublish).any fun p =>
      decide (PublishedBefore 1 p.trace)) = true := by
    decide +kernel
  obtain ⟨p, reached, found⟩ := System.exists_reaches_of_exec
    (C := PublishedKept) (by decide +kernel) run
  have published := of_decide_eq_true found
  obtain ⟨stays, unreported, -⟩ := published_final reached
  exact ⟨p, reached, published, stays 1 published, unreported⟩

/-- The publisher rejects the message of the first lane, which marks it failed; then a reader
lists it and a sweep parks it. -/
def rejectedLate : List (Action ClientChoice ClientArrival) :=
  [.step 1 { published := .error (.publishPoisoned "schema") }, .step 1 {}, .step 1 { now := 12 },
    .arrive (.call (.failed 5)), .step 4 { order := [1] }, .step 4 {},
    .arrive (.call (.sweepFailedToDeadLetter 5)), .step 5 { order := [1] }, .step 5 {},
    .step 5 { uuid := 7 }]

/-- The messages a finished `failed` call listed. -/
def listing (t : Async.Task clientSignature ClientChoice ClientTask ClientReturn) :
    List OutboxMessage :=
  match t.rest with
  | .ret (.listed (.ok batch)) => batch
  | _ => []

/-- A late failure takes a publication back: the message is listed as failed by a call that
began after it was published, and parked. -/
theorem published_overwritten : ∃ p q : ClientPool,
    (system threeAttempts).Reaches Ordinary (initial 10) p ∧ PublishedBefore 1 p.trace ∧
    HasStatus p.shared 1 .published ∧ p.tasks[4]? = none ∧
    (system threeAttempts).Reaches Ordinary p q ∧ HasStatus q.shared 1 .failed ∧
    (∃ t, q.tasks[4]? = some t ∧ t.args = .call (.failed 5) ∧ ∃ m ∈ listing t, m.id = 1) ∧
    contributed p.shared 1 = 0 ∧ contributed q.shared 1 = 1 := by
  have run : (((system threeAttempts).exec (initial 10) reclaimed).any fun p =>
      decide (PublishedBefore 1 p.trace ∧ HasStatus p.shared 1 .published ∧ p.tasks.length = 4 ∧
        contributed p.shared 1 = 0) &&
        (decide ((system threeAttempts).Along Ordinary p rejectedLate) &&
          ((system threeAttempts).exec p rejectedLate).any fun q =>
            decide (HasStatus q.shared 1 .failed ∧ contributed q.shared 1 = 1) &&
              q.tasks[4]?.any fun t => decide (t.args = .call (.failed 5) ∧
                ∃ m ∈ listing t, m.id = 1))) = true := by
    decide +kernel
  obtain ⟨p, reached, found⟩ := System.exists_reaches_of_exec
    (C := Ordinary) (by decide +kernel) run
  simp only [Bool.and_eq_true, Option.any_eq_true, decide_eq_true_eq] at found
  obtain ⟨⟨published, status, four, before⟩, along, q, ran, ⟨failed, after⟩, t, at_, called, listed⟩ :=
    found
  exact ⟨p, q, reached, published, status, List.getElem?_eq_none (le_of_eq four),
    System.reaches_of_exec along ran, failed, ⟨t, at_, called, listed⟩, before, after⟩

end OutboxClients

end Pharos

import Pharos.Outbox.Clients

/-!
# Claims of concurrent `pending` calls

Two calls may choose the same candidates; the re-check under the lock of the row decides.
A claim moves `next_attempt_at` to the end of its lease and only `schedule_retry` moves it
back, so a row that was claimed stays out of reach of every clock reading before the end of
the lease (`leased_of_claimedSince`).  What a call read in its first pass may be out of date
when it claims, but rows keep their id and their creation time, so a batch comes out in the
order in which its candidates were sorted.
-/

namespace Pharos

namespace OutboxClients

open Async

/-- The id and the clock reading of a claim that succeeded. -/
def claimOf : ClientEvent → Option (Uuid × Time)
  | ⟨_, .claim now id, some _⟩ => some (id, now)
  | _ => none

/-- The entry claims `id` with the clock reading `now`. -/
def Claims (id : Uuid) (now : Time) (entry : ClientEntry) : Prop :=
  claimOf entry.event = some (id, now)

instance (id : Uuid) (now : Time) (entry : ClientEntry) : Decidable (Claims id now entry) :=
  inferInstanceAs (Decidable (claimOf entry.event = some (id, now)))

/-- The id of the row that was rescheduled. -/
def retryOf : ClientEvent → Option Uuid
  | ⟨_, .dispatch (.scheduleRetry id _), _⟩ => some id
  | _ => none

/-- The entry is a `schedule_retry` of `id`. -/
def Reschedules (id : Uuid) (entry : ClientEntry) : Prop := retryOf entry.event = some id

/-- `id` was claimed with the clock reading `now`, and no `schedule_retry` of it ran since. -/
def ClaimedSince (id : Uuid) (now : Time) (trace : List ClientEntry) : Prop :=
  Since (Claims id now) (Reschedules id) trace

/-- No clock reading claims `id` before the lease of an earlier claim ended. -/
def Exclusive (lease : ChronoDuration) (earlier : List ClientEntry) (entry : ClientEntry) : Prop :=
  ∀ id now₁ now₂, ClaimedSince id now₁ earlier → Claims id now₂ entry → now₁ + lease ≤ now₂

section Exclusive

variable {config : DispatchConfig} {lease : ChronoDuration} {p : ClientPool} {id : Uuid}
  {now : Time} {last : ClientEntry}

theorem exists_of_claims (claims : Claims id now last) :
    ∃ choice claimed, last.event = ⟨choice, .claim now id, some claimed⟩ := by
  obtain ⟨task, args, past, before, choice, op, reply⟩ := last
  cases op with
  | claim now' id' =>
      cases reply with
      | none => cases claims
      | some claimed =>
          cases claims
          exact ⟨choice, claimed, rfl⟩
  | _ => cases claims

/-- What an entry that claims met and left. -/
theorem serve_of_claims {i : ℕ} {a : ClientTask} {past : List ClientEvent} {s s' : ClientShared}
    {choice : ClientChoice} {op : ClientOp} {reply : op.Reply}
    (claims : Claims id now ⟨i, a, past, s, ⟨choice, op, reply⟩⟩)
    (served : serve config s choice op = some (s', reply)) :
    ∃ row, s.repo.get id = some row ∧ InMemoryOutboxRepository.Due now row ∧
      s'.repo.get id = some (InMemoryOutboxRepository.leased s.repo.claimLease now row) := by
  obtain ⟨choice', claimed, here⟩ := exists_of_claims claims
  cases here
  obtain ⟨row, found, due, rfl, stored⟩ := serve_claim served
  exact ⟨row, found, due, stored⟩

/-- The row of `id` is not due before `expiry`. -/
def LeasedUntil (repo : InMemoryOutboxRepository) (id : Uuid) (expiry : Time) : Prop :=
  ∃ row, repo.get id = some row ∧ expiry ≤ row.nextAttemptAt

/-- An insert under a fresh id leaves the lease as it is. -/
theorem LeasedUntil.arrive {arrival : ClientArrival} {s' : ClientShared} {args : List ClientTask}
    {expiry : Time} (leased : LeasedUntil p.shared.repo id expiry)
    (fresh : InsertsFresh p (.arrive arrival))
    (arrived : OutboxClients.arrive p.shared arrival = some (s', args)) :
    LeasedUntil s'.repo id expiry := by
  obtain ⟨row, found, bound⟩ := leased
  exact ⟨row, (get_arrive fresh arrived found), bound⟩

/-- Only `schedule_retry` shortens a lease. -/
theorem LeasedUntil.serve {s s' : ClientShared} {choice : ClientChoice} {op : ClientOp}
    {reply : op.Reply} {expiry : Time} (leased : LeasedUntil s.repo id expiry)
    (nonnegative : 0 ≤ s.repo.claimLease) (served : serve config s choice op = some (s', reply))
    (quiet : ∀ delay, op ≠ .dispatch (.scheduleRetry id delay)) :
    LeasedUntil s'.repo id expiry := by
  obtain ⟨row, found, bound⟩ := leased
  rcases (serve_oneRow served).2 id with same | ⟨before, after, found', stored, step⟩
  · exact ⟨row, same.trans found, bound⟩
  · cases found.symm.trans found'
    refine ⟨after, stored, ?_⟩
    cases step with
    | @claimed now due =>
        exact (bound.trans due.2).trans (Int.le_add_of_nonneg_right nonnegative)
    | postponed => exact (quiet _ rfl).elim
    | _ => exact bound

theorem claimLease_of_reaches {C : ClientPool → Action ClientChoice ClientArrival → Prop}
    (reached : (system config).Reaches C (initial lease) p) : p.shared.repo.claimLease = lease := by
  refine reached.invariant (P := fun p => p.shared.repo.claimLease = lease) rfl ?_
  intro q r action _ same _ stepped
  obtain ⟨arrival, shared, args, rfl, arrived, rfl⟩ |
    ⟨i, choice, t, op, next, shared, reply, rfl, found, awaits, served, rfl⟩ :=
    System.step_cases stepped
  · exact (claimLease_arrive arrived).trans same
  · exact (serve_oneRow served).1.trans same

/-- A claimed row stays out of reach until the lease ends. -/
theorem leasedUntil_of_claimedSince (nonnegative : 0 ≤ lease)
    (reached : (system config).Reaches InsertsFresh (initial lease) p)
    (since : ClaimedSince id now p.trace) : LeasedUntil p.shared.repo id (now + lease) := by
  revert since
  refine reached.invariant (P := fun p => ClaimedSince id now p.trace →
    LeasedUntil p.shared.repo id (now + lease)) ?_ ?_
  · intro since
    exact (not_since_nil since).elim
  · intro q r action before leased side stepped since
    obtain ⟨arrival, shared, args, rfl, arrived, rfl⟩ |
      ⟨i, choice, t, op, next, shared, reply, rfl, found, awaits, served, rfl⟩ :=
      System.step_cases stepped
    · exact (leased since).arrive side arrived
    · have same := claimLease_of_reaches before
      rcases Since.concat since with claims | ⟨earlier, quiet⟩
      · obtain ⟨row, -, -, stored⟩ := serve_of_claims claims served
        rw [same] at stored
        exact ⟨_, stored, le_refl _⟩
      · refine (leased earlier).serve (same ▸ nonnegative) served ?_
        rintro delay rfl
        exact quiet rfl

theorem exclusive_of_reaches (nonnegative : 0 ≤ lease)
    (reached : (system config).Reaches InsertsFresh (initial lease) p) :
    Throughout (Exclusive lease) p.trace := by
  refine reached.invariant (P := fun p => Throughout (Exclusive lease) p.trace)
    (throughout_nil _) ?_
  intro q r action before all side stepped
  obtain ⟨arrival, shared, args, rfl, arrived, rfl⟩ |
    ⟨i, choice, t, op, next, shared, reply, rfl, found, awaits, served, rfl⟩ :=
    System.step_cases stepped
  · exact all
  · refine all.concat fun id now₁ now₂ since claims => ?_
    obtain ⟨row, found', bound⟩ := leasedUntil_of_claimedSince nonnegative before since
    obtain ⟨row', stored, due, -⟩ := serve_of_claims claims served
    cases found'.symm.trans stored
    exact bound.trans due.2

end Exclusive

/-! ## Batches -/

/-- The row of the candidate is stored, with the creation time it was chosen by. -/
def Known (s : ClientShared) (candidate : Uuid × Time) : Prop :=
  ∃ row, s.repo.get candidate.1 = some row ∧ row.createdAt = candidate.2

theorem Known.retained {s s' : ClientShared} {candidate : Uuid × Time} (known : Known s candidate)
    (moved : Retains s s') : Known s' candidate := by
  obtain ⟨row, found, created⟩ := known
  obtain ⟨row', found', same⟩ := moved candidate.1 row found
  exact ⟨row', found', same.trans created⟩

/-- The call claimed `m` with the clock reading `now`. -/
def ClaimedAs (past : List ClientEvent) (now : Time) (m : OutboxMessage) : Prop :=
  ∃ choice, (⟨choice, .claim now m.id, some m⟩ : ClientEvent) ∈ past

/-- The call read `now` off the clock. -/
def ReadClock (past : List ClientEvent) (now : Time) : Prop :=
  ∃ choice, (⟨choice, .utcNow, now⟩ : ClientEvent) ∈ past

/-- A batch of at most `limit` distinct messages in the order of their creation, each of them
claimed by the call with its own clock reading. -/
structure Batch (limit : ℕ) (past : List ClientEvent) (batch : List OutboxMessage) : Prop where
  bounded : batch.length ≤ limit
  nodup : (batch.map OutboxMessage.id).Nodup
  ordered : batch.Pairwise OutboxMessage.Before
  claimed : ∃ now, ReadClock past now ∧ ∀ m ∈ batch, ClaimedAs past now m

/-- Claims use the clock reading of their call; rows keep their creation time. -/
def claimOutline : Outline clientSignature ClientShared ClientChoice ClientTask where
  inv _ := True
  rely _ := Retains
  allowed _ := True
  pre _ past _ op := ∀ now id, op = .claim now id → ReadClock past now

/-- The batch a call returned or handed to its lanes. -/
def HandedOut : ClientTask → List ClientEvent → ClientShared → ClientReturn → Prop
  | .call (.pending limit), past, _, value =>
      ∃ batch, value = .listed (.ok batch) ∧ Batch limit past batch
  | .call (.dispatchPending limit), past, _, _ =>
      ∃ batch choice, (⟨choice, .spawn (OutboxDispatcher.lanes batch), ()⟩ : ClientEvent) ∈ past ∧
        Batch limit past batch
  | _, _, _, _ => True

section Batches

variable {config : DispatchConfig} {a : ClientTask} {past : List ClientEvent} {s : ClientShared}
  {now : Time}

/-- An operation that is no claim may always be performed. -/
theorem safe_await {α : Type} {post : List ClientEvent → ClientShared → α → Prop} {op : ClientOp}
    {next : op.Reply → ClientM α} (free : ∀ now id, op ≠ .claim now id)
    (rest : ∀ s' choice s'' reply, Retains s s' → serve config s' choice op = some (s'', reply) →
      Safe (serve config) claimOutline a post (next reply) (⟨choice, op, reply⟩ :: past) s'') :
    Safe (serve config) claimOutline a post (await op >>= next) past s := by
  refine Safe.call (S := clientSignature) (fun _ _ _ now id same => (free now id same).elim) ?_
  intro s' choice s'' reply _ moved _ served
  exact rest s' choice s'' reply moved served

/-- A safe part of a program leaves rows and the past in place. -/
theorem safe_keeps {α : Type} {post : List ClientEvent → ClientShared → α → Prop}
    {program : ClientM α} (safe : Safe (serve config) claimOutline a post program past s) :
    Safe (serve config) claimOutline a
      (fun past' s' value => (post past' s' value ∧ past <:+ past') ∧ Retains s s') program past s :=
  (safe.grows (List.suffix_refl past)).track Retains.trans (fun _ _ _ served => retains_serve served)
    (Retains.refl s)

/-- The first pass collects candidates at distinct keys. -/
theorem safe_scan (keys : List Uuid) :
    Safe (serve config) claimOutline a
      (fun _ s' found => (found.map Prod.fst).Sublist keys ∧ ∀ c ∈ found, Known s' c)
      (scan (candidate now) keys) past s := by
  induction keys generalizing past s with
  | nil => exact ⟨List.Sublist.refl [], fun c member => (by cases member)⟩
  | cons key keys ih =>
      refine safe_await (fun _ _ => nofun) fun s' choice s'' entry moved served => ?_
      refine Safe.bind (safe_keeps ih) ?_
      rintro past' s₂ found ⟨⟨⟨distinct, known⟩, -⟩, kept⟩
      cases served
      cases stored : s'.repo.get key with
      | none => exact ⟨distinct.cons key, known⟩
      | some entry =>
          have same : entry.id = key := InMemoryOutboxRepository.id_of_get stored
          by_cases due : InMemoryOutboxRepository.Due now entry
          · simp only [Option.bind_some, candidate, if_pos due]
            refine ⟨?_, fun c member => ?_⟩
            · rw [← same]
              exact distinct.cons_cons entry.id
            · rcases List.mem_cons.mp member with rfl | later
              · refine Known.retained ⟨entry, ?_, rfl⟩ kept
                rw [same]
                exact stored
              · exact known c later
          · simp only [Option.bind_some, candidate, if_neg due]
            exact ⟨distinct.cons key, known⟩

/-- The second pass returns what it claims, in the order of the candidates. -/
theorem safe_claimEach (candidates : List (Uuid × Time)) (clock : ReadClock past now)
    (known : ∀ c ∈ candidates, Known s c) :
    Safe (serve config) claimOutline a
      (fun past' _ claimed => (claimed.map fun m => (m.id, m.createdAt)).Sublist candidates ∧
        ∀ m ∈ claimed, ClaimedAs past' now m)
      (claimEach now candidates) past s := by
  induction candidates generalizing past s with
  | nil => exact ⟨List.Sublist.refl [], fun m member => (by cases member)⟩
  | cons head candidates ih =>
      obtain ⟨id, created⟩ := head
      refine Safe.call (S := clientSignature) ?_ ?_
      · intro s' _ _ now' id' same
        cases same
        exact clock
      · intro s' choice s'' claimed _ moved _ served
        have clock' : ReadClock ((⟨choice, .claim now id, claimed⟩ : ClientEvent) :: past) now := by
          obtain ⟨choice', read⟩ := clock
          exact ⟨choice', List.mem_cons_of_mem _ read⟩
        have known' : ∀ c ∈ candidates, Known s'' c := fun c member =>
          ((known c (List.mem_cons_of_mem _ member)).retained moved).retained (retains_serve served)
        refine Safe.bind (safe_keeps (ih clock' known')) ?_
        rintro past' s₂ rest ⟨⟨⟨sub, all⟩, grown⟩, -⟩
        cases claimed with
        | none => exact ⟨sub.cons _, all⟩
        | some m =>
            have answered : serve config s' choice (.claim now id) = some (s'', some m) := served
            obtain ⟨row, found, -, eq, -⟩ := serve_claim answered
            obtain ⟨row', found', created'⟩ :=
              (known (id, created) List.mem_cons_self).retained moved
            cases found.symm.trans found'
            have rowId : row.id = id := InMemoryOutboxRepository.id_of_get found
            have same : m.id = id := by
              rw [eq]
              exact rowId
            have created : m.createdAt = created := by
              rw [eq]
              exact created'
            refine ⟨?_, fun m' member => ?_⟩
            · subst same created
              exact sub.cons_cons _
            · rcases List.mem_cons.mp member with rfl | later
              · refine ⟨choice, grown.subset ?_⟩
                rw [same]
                exact List.mem_cons_self
              · exact all m' later

/-- What is claimed of sorted, distinct candidates is in order. -/
theorem batch_of_sublist {limit : ℕ} {found : List (Uuid × Time)} {batch : List OutboxMessage}
    (distinct : (found.map Prod.fst).Nodup)
    (sub : (batch.map fun m => (m.id, m.createdAt)).Sublist
      ((found.insertionSort InMemoryOutboxRepository.NotAfter).take limit))
    (clock : ReadClock past now) (claimed : ∀ m ∈ batch, ClaimedAs past now m) :
    Batch limit past batch := by
  have perm := List.perm_insertionSort InMemoryOutboxRepository.NotAfter found
  have nodup : (batch.map OutboxMessage.id).Nodup := by
    have all := (perm.map Prod.fst).nodup_iff.mpr distinct
    have part := (sub.trans (List.take_sublist _ _)).map Prod.fst
    rw [List.map_map] at part
    exact all.sublist part
  have sorted : (batch.map fun m => (m.id, m.createdAt)).Pairwise
      InMemoryOutboxRepository.NotAfter := by
    have : Std.Total InMemoryOutboxRepository.NotAfter :=
      ⟨InMemoryOutboxRepository.notAfter_total⟩
    have : IsTrans (Uuid × Time) InMemoryOutboxRepository.NotAfter :=
      ⟨InMemoryOutboxRepository.notAfter_trans⟩
    exact (List.pairwise_insertionSort _ found).sublist (sub.trans (List.take_sublist _ _))
  refine ⟨?_, nodup, ?_, now, clock, claimed⟩
  · have short := sub.length_le
    rw [List.length_map, List.length_take] at short
    omega
  · exact InMemoryOutboxRepository.pairwise_before (List.pairwise_map.mp sorted) nodup

theorem safe_pending (limit : ℕ) :
    Safe (serve config) claimOutline a
      (fun past' _ result => ∃ batch, result = .ok batch ∧ Batch limit past' batch)
      (pending limit) past s := by
  refine safe_await (fun _ _ => nofun) fun s₁ choice s₁' now _ _ => ?_
  refine safe_await (fun _ _ => nofun) fun s₂ choice' s₂' keys _ served => ?_
  have distinct : keys.Nodup := nodup_iter served
  refine Safe.bind (safe_keeps (safe_scan keys)) ?_
  rintro past₁ s₃ found ⟨⟨⟨sub, known⟩, grown⟩, -⟩
  have clock : ReadClock past₁ now :=
    ⟨choice, grown.subset (List.mem_cons_of_mem _ List.mem_cons_self)⟩
  have stored : ∀ c ∈ (found.insertionSort InMemoryOutboxRepository.NotAfter).take limit,
      Known s₃ c := fun c member =>
    known c ((List.perm_insertionSort _ found).mem_iff.mp (List.mem_of_mem_take member))
  refine Safe.bind (safe_keeps (safe_claimEach _ clock stored)) ?_
  rintro past₂ s₄ batch ⟨⟨⟨part, claimed⟩, grown'⟩, -⟩
  have clock' : ReadClock past₂ now := by
    obtain ⟨choice, read⟩ := clock
    exact ⟨choice, grown'.subset read⟩
  exact ⟨batch, rfl, batch_of_sublist (distinct.sublist sub) part clock' claimed⟩

theorem Batch.grow {limit : ℕ} {past' : List ClientEvent} {batch : List OutboxMessage}
    (known : Batch limit past batch) (grown : past <:+ past') : Batch limit past' batch := by
  obtain ⟨now, ⟨choice, read⟩, claimed⟩ := known.claimed
  refine ⟨known.bounded, known.nodup, known.ordered, now, ⟨choice, grown.subset read⟩, ?_⟩
  intro m member
  obtain ⟨choice', event⟩ := claimed m member
  exact ⟨choice', grown.subset event⟩

theorem safe_body (task : ClientTask) :
    Safe (serve config) claimOutline task (HandedOut task) (body task) [] s := by
  have free {task : ClientTask} (silent : ∀ past s value, HandedOut task past s value)
      (never : ∀ now id, ¬ Performs task (.claim now id)) :
      Safe (serve config) claimOutline task (HandedOut task) (body task) [] s :=
    .of_only (only_body task)
      (fun _ _ _ performed now id same => (never now id (same ▸ performed)).elim) silent
  cases task with
  | call call =>
      cases call with
      | pending limit =>
          refine Safe.bind (safe_pending limit) ?_
          rintro past s result ⟨batch, rfl, known⟩
          exact ⟨batch, rfl, known⟩
      | dispatchPending limit =>
          refine Safe.bind (Q := fun past s _ => HandedOut (.call (.dispatchPending limit)) past s
            .returned) (Safe.bind (safe_pending limit) ?_) fun _ _ _ handed => handed
          rintro past s result ⟨batch, rfl, known⟩
          refine safe_await (fun _ _ => nofun) fun _ choice _ _ _ _ => ?_
          exact ⟨batch, choice, List.mem_cons_self, known.grow (List.suffix_cons _ past)⟩
      | failed limit => exact free (fun _ _ _ => trivial) (by simp [Performs])
      | operation op => exact free (fun _ _ _ => trivial) (by simp [Performs])
      | markDeadLettered id => exact free (fun _ _ _ => trivial) (by simp [Performs])
      | sweepFailedToDeadLetter limit => exact free (fun _ _ _ => trivial) (by simp [Performs])
  | lane messages => exact free (fun _ _ _ => trivial) (by simp [Performs])

variable {lease : ChronoDuration} {p : ClientPool}

theorem claimOutline_of_reaches
    (reached : (system config).Reaches InsertsFresh (initial lease) p) :
    claimOutline.Holds (system config) HandedOut p := by
  refine Outline.holds_of_reaches (fun _ => Retains.refl) Retains.trans ?_ ?_ ?_ reached
  · exact ⟨trivial, fun i t found => (by cases found)⟩
  · intro q i t op next choice s' reply _ _ _ _ _ served
    exact ⟨trivial, trivial, fun _ _ _ _ => retains_serve served⟩
  · intro q arrival s' args _ _ fresh arrived
    exact ⟨trivial, fun _ _ => retains_arrive fresh arrived, fun task _ => safe_body task⟩

/-- Every claim used the clock reading of its call and found a pending row, which the call was
given with its new lease. -/
theorem claim_of_mem_trace (reached : (system config).Reaches InsertsFresh (initial lease) p) :
    ∀ entry ∈ p.trace, ∀ choice now id m, entry.event = ⟨choice, .claim now id, some m⟩ →
      ReadClock entry.past now ∧ ∃ row, entry.before.repo.get id = some row ∧
        row.status = .pending ∧ m = InMemoryOutboxRepository.leased lease now row := by
  refine reached.invariant (P := fun p : ClientPool => ∀ entry ∈ p.trace, ∀ choice now id m,
    entry.event = ⟨choice, .claim now id, some m⟩ →
      ReadClock entry.past now ∧ ∃ row, entry.before.repo.get id = some row ∧
        row.status = .pending ∧ m = InMemoryOutboxRepository.leased lease now row) ?_ ?_
  · intro entry member
    cases member
  · intro q r action before all side stepped
    obtain ⟨arrival, shared, args, rfl, arrived, rfl⟩ |
      ⟨i, choice, t, op, next, shared, reply, rfl, found, awaits, served, rfl⟩ :=
      System.step_cases stepped
    · exact all
    · intro entry member choice' now id m claim
      rw [Pool.advance_trace, List.mem_append, List.mem_singleton] at member
      rcases member with old | rfl
      · exact all entry old choice' now id m claim
      · cases claim
        have clock := (claimOutline_of_reaches before).pre found awaits now id rfl
        have answered : serve config q.shared choice (.claim now id) = some (shared, some m) :=
          served
        obtain ⟨row, stored, due, eq, -⟩ := serve_claim answered
        rw [claimLease_of_reaches before] at eq
        exact ⟨clock, row, stored, due.1, eq⟩

end Batches

/-- The task with number `i` claimed `m`, whose row was pending until then. -/
def ClaimedPending (p : ClientPool) (lease : ChronoDuration) (i : ℕ) (m : OutboxMessage) : Prop :=
  ∃ entry ∈ p.trace, entry.task = i ∧ ∃ now, Claims m.id now entry ∧ ReadClock entry.past now ∧
    ∃ row, entry.before.repo.get m.id = some row ∧ row.status = .pending ∧
      m = InMemoryOutboxRepository.leased lease now row

/-- A batch as `pending` promises it: bounded, without duplicates, in `(created_at, id)` order,
and of messages that were pending when they were claimed. -/
structure ProperBatch (p : ClientPool) (lease : ChronoDuration) (i limit : ℕ)
    (batch : List OutboxMessage) : Prop where
  bounded : batch.length ≤ limit
  nodup : (batch.map OutboxMessage.id).Nodup
  ordered : batch.Pairwise OutboxMessage.Before
  claimed : ∀ m ∈ batch, ClaimedPending p lease i m

section Pending

variable {config : DispatchConfig} {lease : ChronoDuration} {p : ClientPool} {i limit : ℕ}
  {t : Async.Task clientSignature ClientChoice ClientTask ClientReturn}

theorem Batch.proper {batch : List OutboxMessage}
    (reached : (system config).Reaches InsertsFresh (initial lease) p)
    (found : p.tasks[i]? = some t) (known : Batch limit t.past batch) :
    ProperBatch p lease i limit batch := by
  refine ⟨known.bounded, known.nodup, known.ordered, fun m member => ?_⟩
  obtain ⟨now, -, claimed⟩ := known.claimed
  obtain ⟨choice, happened⟩ := claimed m member
  obtain ⟨entry, inTrace, task, -, same⟩ := reached.mem_trace rfl rfl found happened
  obtain ⟨clock, row, stored, status, eq⟩ :=
    claim_of_mem_trace reached entry inTrace choice now m.id m same
  refine ⟨entry, inTrace, task, now, ?_, clock, row, stored, status, eq⟩
  rw [Claims, same]
  rfl

/-- Claims are exclusive and batches are proper, for any number of concurrent `pending` calls
and dispatchers, interleaved at any step with inserts of fresh ids, attempts, retries and marks:
a claim with the clock reading `now₂` that follows one with `now₁` has `now₁ + lease ≤ now₂`
unless a `schedule_retry` of the message ran in between; and what a finished call returned, or a
dispatcher handed to its lanes, is a batch of at most `limit` distinct messages in
`(created_at, id)` order, each of which was pending when the call claimed it. -/
theorem pending_exclusive (positive : 0 < lease)
    (reached : (system config).Reaches InsertsFresh (initial lease) p) :
    Throughout (Exclusive lease) p.trace ∧
    (∀ i t limit value, p.tasks[i]? = some t → t.args = .call (.pending limit) →
      t.rest = .ret value → ∃ batch, value = .listed (.ok batch) ∧
        ProperBatch p lease i limit batch) ∧
    (∀ i t limit value, p.tasks[i]? = some t → t.args = .call (.dispatchPending limit) →
      t.rest = .ret value → ∃ batch choice,
        (⟨choice, .spawn (OutboxDispatcher.lanes batch), ()⟩ : ClientEvent) ∈ t.past ∧
        ProperBatch p lease i limit batch) := by
  have holds := claimOutline_of_reaches reached
  refine ⟨exclusive_of_reaches positive.le reached, ?_, ?_⟩
  · intro i t limit value found called returned
    obtain ⟨s, -, handed⟩ := holds.post_of_ret found returned
    rw [called] at handed
    obtain ⟨batch, rfl, known⟩ := handed
    exact ⟨batch, rfl, known.proper reached found⟩
  · intro i t limit value found called returned
    obtain ⟨s, -, handed⟩ := holds.post_of_ret found returned
    rw [called] at handed
    obtain ⟨batch, choice, spawned, known⟩ := handed
    exact ⟨batch, choice, spawned, known.proper reached found⟩

end Pending

/-- Two calls choose message 1; the first to reach the row claims it, and a third call claims
it when the lease has ended. -/
def contended : List (Action ClientChoice ClientArrival) :=
  [.arrive (.insert letter), .arrive (.call (.pending 5)), .arrive (.call (.pending 5)),
    .step 0 { now := 3 }, .step 1 { now := 2 }, .step 0 { order := [1] }, .step 1 { order := [1] },
    .step 0 {}, .step 1 {}, .step 0 {}, .step 1 {}, .arrive (.call (.pending 5)),
    .step 2 { now := 13 }, .step 2 { order := [1] }, .step 2 {}, .step 2 {}]

theorem pending_exclusive_contended : (0 : ChronoDuration) < 10 ∧ ∃ p : ClientPool,
    (system threeAttempts).Reaches InsertsFresh (initial 10) p ∧
    (∃ entry ∈ p.trace, Claims 1 3 entry) ∧ (∃ entry ∈ p.trace, Claims 1 13 entry) ∧
    Throughout (Exclusive 10) p.trace ∧
    ∃ t batch, p.tasks[0]? = some t ∧ t.rest = .ret (.listed (.ok batch)) ∧
      ProperBatch p 10 0 5 batch := by
  have run : (((system threeAttempts).exec (initial 10) contended).any fun p =>
      decide ((∃ entry ∈ p.trace, Claims 1 3 entry) ∧ ∃ entry ∈ p.trace, Claims 1 13 entry) &&
        p.tasks[0]?.any fun t => decide (t.Finished ∧ t.args = .call (.pending 5))) = true := by
    decide +kernel
  obtain ⟨p, reached, found⟩ := System.exists_reaches_of_exec
    (C := InsertsFresh) (by decide +kernel) run
  simp only [Bool.and_eq_true, Option.any_eq_true, decide_eq_true_eq] at found
  obtain ⟨⟨first, second⟩, t, at_, finished, args⟩ := found
  obtain ⟨value, returned⟩ := finished.exists_ret
  obtain ⟨exclusive, batches, -⟩ := pending_exclusive (by decide) reached
  obtain ⟨batch, rfl, proper⟩ := batches 0 t 5 value at_ args returned
  exact ⟨by decide, p, reached, first, second, exclusive, t, batch, at_, returned, proper⟩

end OutboxClients

end Pharos

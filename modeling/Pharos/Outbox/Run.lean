import Pharos.Outbox.Book

/-!
# What one run guarantees

Every claimed message is in one lane; the publish calls of a key are a prefix of its
messages in claim order that stops after the first message not delivered; what is
behind that message is stored as it was claimed; and the reported count is the number of
messages marked as published.  All of it is read off the `Consistent` book.
-/

namespace Pharos

namespace OutboxDispatcher

open Async

/-- The publish calls of the run for messages of `key`. -/
def keyCalls (s : OutboxShared) (key : String) : List PublishCall :=
  s.run.calls.filter fun call => call.record.message.key = some key

/-- The stored row of `m` is marked as published. -/
def IsPublished (s : OutboxShared) (m : OutboxMessage) : Prop :=
  ∃ row, s.repo.get m.id = some row ∧ row.status = .published

instance (s : OutboxShared) (m : OutboxMessage) : Decidable (IsPublished s m) :=
  match found : s.repo.get m.id with
  | none => .isFalse (by simp [IsPublished, found])
  | some row => decidable_of_iff (row.status = .published) (by simp [IsPublished, found])

section Guarantees

variable {config : DispatchConfig} {p : DispatchPool}

theorem Ready.laneAt {s : OutboxShared} {lane : List OutboxMessage} {op : DispatchOp}
    (ready : Ready config s lane op) : ∃ done rest stage, LaneAt config s lane done rest stage := by
  cases op with
  | recordAttempt id | markPublished id =>
      obtain ⟨done, m, behind, -, at_⟩ := ready
      exact ⟨done, m :: behind, _, at_⟩
  | publish record =>
      obtain ⟨done, behind, at_⟩ := ready
      exact ⟨done, record :: behind, _, at_⟩
  | decideFor attempt failure =>
      obtain ⟨done, m, behind, error, -, -, at_⟩ := ready
      exact ⟨done, m :: behind, _, at_⟩
  | markFailed id text =>
      obtain ⟨done, m, behind, error, -, -, -, at_⟩ := ready
      exact ⟨done, m :: behind, _, at_⟩
  | scheduleRetry id delay =>
      obtain ⟨done, m, behind, error, -, -, at_⟩ := ready
      exact ⟨done, m :: behind, _, at_⟩
  | yield published errors =>
      obtain ⟨done, rest, stage, at_, -⟩ := ready
      exact ⟨done, rest, stage, at_⟩

theorem Ended.laneAt {s : OutboxShared} {lane : List OutboxMessage} {n : ℕ}
    (ended : Ended config s lane n) : ∃ done rest stage, LaneAt config s lane done rest stage := by
  obtain ⟨done, rest, stage, at_, -⟩ := ended
  exact ⟨done, rest, stage, at_⟩

theorem Ended.moved {s s' : OutboxShared} {lane : List OutboxMessage} {n : ℕ}
    (ended : Ended config s lane n) (same : SameLane lane s s') : Ended config s' lane n := by
  obtain ⟨done, rest, stage, at_, count, stopped⟩ := ended
  exact ⟨done, rest, stage, same.laneAt at_, count, stopped⟩

/-- A finished lane of the run in progress has yielded its count, and is where it stopped. -/
theorem Consistent.ended (c : Consistent config p) {t : LaneTask} (started : t ∈ p.tasks)
    (current : t.args.run = p.shared.runs) (finished : t.Finished) :
    ∃ n errors, yields t.past = [(n, errors)] ∧ Ended config p.shared t.args.messages n := by
  obtain ⟨i, found⟩ := List.getElem?_of_mem started
  cases returned : t.rest with
  | await op next =>
      rw [Task.Finished, returned] at finished
      exact finished.elim
  | ret value =>
      obtain ⟨s, rely, n, errors, yielded, ended⟩ := c.holds.post_of_ret found returned
      obtain ⟨before, same⟩ := rely current
      exact ⟨n, errors, yielded, (ended before).moved same⟩

/-- Every lane of the run in progress is somewhere. -/
theorem Consistent.laneAt (c : Consistent config p) {lane : List OutboxMessage}
    (member : lane ∈ lanes p.shared.run.claimed) :
    ∃ done rest stage, LaneAt config p.shared lane done rest stage := by
  rw [← c.book.partition, List.mem_append] at member
  rcases member with started | waits
  · obtain ⟨t, listed, rfl⟩ := List.mem_map.mp started
    obtain ⟨started, current⟩ := List.mem_filter.mp listed
    have current := of_decide_eq_true current
    by_cases finished : t.Finished
    · obtain ⟨n, errors, -, ended⟩ := c.ended started current finished
      exact ended.laneAt
    · obtain ⟨i, found⟩ := List.getElem?_of_mem started
      cases awaits : t.rest with
      | ret value =>
          rw [Task.Finished, awaits] at finished
          exact (finished trivial).elim
      | await op next => exact ((c.holds.pre found awaits).2 current).laneAt
  · exact ⟨[], lane, .untouched, c.book.waiting lane waits⟩

/-- When the run is over, every lane has ended. -/
theorem Consistent.allEnded (c : Consistent config p) (quiescent : p.Quiescent)
    (allDone : p.shared.run.waiting = []) {lane : List OutboxMessage}
    (member : lane ∈ lanes p.shared.run.claimed) : ∃ n, Ended config p.shared lane n := by
  rw [← c.book.partition, allDone, List.append_nil] at member
  obtain ⟨t, listed, rfl⟩ := List.mem_map.mp member
  obtain ⟨started, current⟩ := List.mem_filter.mp listed
  obtain ⟨n, errors, -, ended⟩ :=
    c.ended started (of_decide_eq_true current) (quiescent t started)
  exact ⟨n, ended⟩

/-- The calls for a key are those of its lane. -/
theorem Book.keyCalls_eq (book : Book config p) (key : String) :
    keyCalls p.shared key = laneCalls p.shared (withKey key p.shared.run.claimed) := by
  unfold keyCalls laneCalls
  refine List.filter_congr fun call member => ?_
  have claimed := book.calls call member
  refine decide_eq_decide.mpr ⟨fun routed => ?_, fun listed => ?_⟩
  · exact List.mem_map_of_mem (List.mem_filter.mpr ⟨claimed, decide_eq_true routed⟩)
  · obtain ⟨m, keyed, same⟩ := List.mem_map.mp listed
    obtain ⟨inBatch, routed⟩ := List.mem_filter.mp keyed
    have eq : m = call.record := List.inj_on_of_nodup_map book.nodup inBatch claimed same
    exact eq ▸ of_decide_eq_true routed

/-- A lane that is over counts the messages it marked as published. -/
theorem Ended.count {s : OutboxShared} {lane : List OutboxMessage} {n : ℕ}
    (ended : Ended config s lane n) (pending : ∀ m ∈ lane, m.status = .pending) :
    n = (lane.filter fun m => IsPublished s m).length := by
  obtain ⟨done, rest, stage, at_, rfl, stopped⟩ := ended
  have all : done.filter (fun m => decide (IsPublished s m)) = done := by
    refine List.filter_eq_self.mpr fun m member => decide_eq_true ?_
    obtain ⟨now, now', stored⟩ := at_.delivered m member
    exact ⟨_, stored, rfl⟩
  have none : rest.filter (fun m => decide (IsPublished s m)) = [] := by
    refine List.filter_eq_nil_iff.mpr fun m member isPublished => ?_
    obtain ⟨row, stored, status⟩ := of_decide_eq_true isPublished
    have waits : m.status = .pending := pending m (at_.split ▸ List.mem_append_right _ member)
    cases rest with
    | nil => cases member
    | cons head behind =>
        rcases List.mem_cons.mp member with rfl | later
        · have at_head := at_.head m rfl
          rcases stopped with empty | ⟨error, rfl | rfl⟩
          · cases empty
          · obtain ⟨-, now, next, updated, stored'⟩ := at_head
            rw [stored] at stored'
            cases stored'
            exact absurd (status.symm.trans waits) (by decide)
          · obtain ⟨-, now, now', stored'⟩ := at_head
            rw [stored] at stored'
            cases stored'
            cases status
        · rw [at_.behind m later] at stored
          cases stored
          exact absurd (status.symm.trans waits) (by decide)
  rw [at_.split, List.filter_append, all, none, List.append_nil]

theorem published_collect (outcomes : List (ℕ × List OutboxDispatchError)) :
    (collect outcomes).published = (outcomes.map Prod.fst).sum := by
  have fold : ∀ result : DispatchResult, (outcomes.foldl (fun result outcome =>
      { published := result.published + outcome.1, errors := result.errors ++ outcome.2 })
      result).published = result.published + (outcomes.map Prod.fst).sum := by
    induction outcomes with
    | nil => exact fun result => rfl
    | cons outcome outcomes ih =>
        intro result
        rw [List.foldl_cons, ih, List.map_cons, List.sum_cons, Nat.add_assoc]
  exact (fold {}).trans (Nat.zero_add _)

/-- The counts of finished lanes add up to what is marked as published in them. -/
theorem sum_reported {s : OutboxShared} {run : ℕ} {tasks : List LaneTask}
    (counted : ∀ t ∈ tasks, t.args.run = run → ∃ n errors, yields t.past = [(n, errors)] ∧
      n = (t.args.messages.filter fun m => IsPublished s m).length) :
    ((reported run tasks).map Prod.fst).sum =
      ((begun run tasks).flatten.filter fun m => IsPublished s m).length := by
  induction tasks with
  | nil => rfl
  | cons t tasks ih =>
      have rest := ih fun u member => counted u (List.mem_cons_of_mem _ member)
      unfold reported begun at rest ⊢
      rw [List.flatMap_cons, List.map_append, List.sum_append, rest, List.filter_cons]
      by_cases current : t.args.run = run
      · obtain ⟨n, errors, yielded, count⟩ := counted t List.mem_cons_self current
        simp only [if_pos current, decide_eq_true current, if_true, yielded, List.map_cons,
          List.map_nil, List.sum_cons, List.sum_nil, Nat.add_zero, List.flatten_cons,
          List.filter_append, List.length_append, count]
      · rw [if_neg current, if_neg (by simpa using current)]
        exact Nat.zero_add _

/-- The reported count of a run that is over. -/
theorem Consistent.published_eq (c : Consistent config p) (quiescent : p.Quiescent)
    (allDone : p.shared.run.waiting = []) :
    (collect p.shared.run.outcomes).published =
      (p.shared.run.claimed.filter fun m => IsPublished p.shared m).length := by
  have partition := c.book.partition
  rw [allDone, List.append_nil] at partition
  rw [published_collect, (c.book.outcomes.map Prod.fst).sum_nat, sum_reported, partition]
  · exact ((lanes_perm p.shared.run.claimed).filter _).length_eq
  · intro t started current
    obtain ⟨n, errors, yielded, ended⟩ := c.ended started current (quiescent t started)
    refine ⟨n, errors, yielded, ended.count fun m inLane => ?_⟩
    exact c.book.pending m (c.book.mem_claimed started current inLane)

theorem singleton_mem_lanes {batch : List OutboxMessage} {m : OutboxMessage} (claimed : m ∈ batch)
    (keyless : m.message.key = none) : [m] ∈ lanes batch := by
  obtain ⟨lane, member, inLane⟩ := List.mem_flatten.mp ((lanes_perm batch).mem_iff.mpr claimed)
  rcases OutboxDispatcher.mem_lanes member with ⟨m', -, rfl⟩ | ⟨key, rfl⟩
  · rw [List.mem_singleton] at inLane
    exact inLane ▸ member
  · have routed := of_decide_eq_true (List.mem_filter.mp inLane).2
    rw [keyless] at routed
    cases routed

/-- A key without messages has nothing to publish. -/
theorem ended_nil (s : OutboxShared) : Ended config s [] 0 := by
  refine ⟨[], [], .untouched, ⟨rfl, ?_, ?_, ?_, ?_⟩, rfl, .inl rfl⟩
  · exact fun _ member => by cases member
  · exact fun _ member => by cases member
  · exact fun _ member => by cases member
  · exact List.filter_eq_nil_iff.mpr fun _ _ listed => by simp at listed

/-- While a run lasts its batch is fixed and rows outside the batch stay as they are. -/
theorem run_frame (p₀ : DispatchPool) {p₁ : DispatchPool} {claimLease : ChronoDuration}
    (reached : (system config).Reaches (Single config) (initial claimLease) p₁)
    (kept : ∀ id row, id ∉ p₁.shared.run.claimed.map OutboxMessage.id →
      p₀.shared.repo.get id = some row → p₁.shared.repo.get id = some row)
    (later : (system config).Reaches (Single config) p₁ p) :
    p₁.shared.runs ≤ p.shared.runs ∧ (p.shared.runs = p₁.shared.runs →
      p.shared.run.claimed = p₁.shared.run.claimed ∧
      ∀ id row, id ∉ p₁.shared.run.claimed.map OutboxMessage.id →
        p₀.shared.repo.get id = some row → p.shared.repo.get id = some row) := by
  refine later.invariant (P := fun p : DispatchPool => p₁.shared.runs ≤ p.shared.runs ∧
    (p.shared.runs = p₁.shared.runs → p.shared.run.claimed = p₁.shared.run.claimed ∧
      ∀ id row, id ∉ p₁.shared.run.claimed.map OutboxMessage.id →
        p₀.shared.repo.get id = some row → p.shared.repo.get id = some row))
    ⟨le_rfl, fun _ => ⟨rfl, kept⟩⟩ ?_
  intro q r action before all side stepped
  rcases all with ⟨le, frame⟩
  have c := consistent_of_reaches (reached.trans before)
  rcases shared_cases c side stepped with ⟨message, -, fresh, eq⟩ |
    ⟨limit, now, order, -, -, -, -, eq⟩ | ⟨first, waiting, -, -, eq⟩ |
    ⟨i, choice, lane, op, reply, -, -, member, -, -, effect⟩
  · rw [eq]
    refine ⟨le, fun same => ⟨(frame same).1, fun id row outside stored => ?_⟩⟩
    have found := (frame same).2 id row outside stored
    refine (InMemoryOutboxRepository.get_write_of_ne fun eq => ?_).trans found
    rw [← eq, found] at fresh
    cases fresh
  · rw [eq]
    refine ⟨Nat.le_succ_of_le le, fun same => ?_⟩
    have : q.shared.runs + 1 = p₁.shared.runs := same
    omega
  · rw [eq]
    exact ⟨le, frame⟩
  · rw [effect.runs, effect.claimed]
    refine ⟨le, fun same => ⟨(frame same).1, fun id row outside stored => ?_⟩⟩
    rw [effect.rows id]
    · exact (frame same).2 id row outside stored
    · intro m inLane eq
      exact outside (eq ▸ (frame same).1 ▸ List.mem_map_of_mem (mem_of_mem_lanes member inLane))

/-- What `dispatch_pending` guarantees for one lane of its batch, here the messages `lane`. -/
def LaneReport (config : DispatchConfig) (p : DispatchPool) (lane : List OutboxMessage) : Prop :=
  (∃ done rest stage, LaneAt config p.shared lane done rest stage) ∧
    (p.Quiescent → p.shared.run.waiting = [] → ∃ n, Ended config p.shared lane n)

/-- Lanes within a run.  A run claims a batch in the configuration `p₀`; whatever its lanes and
the publisher have done since, in any interleaving and at any concurrency:
the batch consists of due rows with a new lease; each of its messages is in exactly one lane; for
every key, and for every message without one, the publish calls of the run are a prefix of the
lane's messages in claim order, all accepted except perhaps the last, and every message behind
the one the lane is at is stored as it was claimed; rows outside the batch are untouched; and
when the run is over each lane has delivered all its messages or stopped at its own first
failure, and the reported count is the number of claimed messages marked as published. -/
theorem dispatch_lanes {p₀ p₁ : DispatchPool} {claimLease : ChronoDuration} {limit : ℕ}
    {now : Time} {order : List Uuid}
    (reached : (system config).Reaches (Single config) (initial claimLease) p₀)
    (single : Single config p₀ (.arrive (.dispatch limit now order)))
    (claims : (system config).step p₀ (.arrive (.dispatch limit now order)) = some p₁)
    (later : (system config).Reaches (Single config) p₁ p)
    (sameRun : p.shared.runs = p₁.shared.runs) {batch : List OutboxMessage}
    (batched : p₁.shared.run.claimed = batch) :
    (∀ m ∈ batch, ∃ row, p₀.shared.repo.get m.id = some row ∧
      InMemoryOutboxRepository.Due now row ∧
      m = { row with nextAttemptAt := now + p₀.shared.repo.claimLease }) ∧
    (lanes batch).flatten.Perm batch ∧ (batch.map OutboxMessage.id).Nodup ∧
    (∀ key, keyCalls p.shared key = laneCalls p.shared (withKey key batch) ∧
      LaneReport config p (withKey key batch)) ∧
    (∀ m ∈ batch, m.message.key = none → LaneReport config p [m]) ∧
    (∀ id row, id ∉ batch.map OutboxMessage.id → p₀.shared.repo.get id = some row →
      p.shared.repo.get id = some row) ∧
    (p.Quiescent → p.shared.run.waiting = [] →
      (collect p.shared.run.outcomes).published =
        (batch.filter fun m => IsPublished p.shared m).length) := by
  have reached₁ : (system config).Reaches (Single config) (initial claimLease) p₁ :=
    reached.tail ⟨_, single, claims⟩
  -- the step claims what `pending` answers
  obtain ⟨iterated, rfl⟩ : order.Perm p₀.shared.repo.store.keys ∧
      p₁ = { p₀ with shared := claimBatch p₀.shared limit now order } := by
    simp only [System.step, system, arrive] at claims
    split at claims
    · next iterated =>
      refine ⟨iterated, ?_⟩
      rw [Option.map_some, Pool.start_nil, Option.some.injEq] at claims
      exact claims.symm
    · cases claims
  have answered : (p₀.shared.repo.pending order now limit).2 = .ok batch :=
    congrArg Except.ok batched
  obtain ⟨-, frame⟩ := run_frame p₀ reached₁ (fun id row outside stored => by
    rw [batched] at outside
    exact (InMemoryOutboxRepository.pending_get_of_not_mem iterated answered outside).trans stored)
    later
  obtain ⟨sameBatch, kept⟩ := frame sameRun
  rw [batched] at sameBatch kept
  have c := consistent_of_reaches (reached₁.trans later)
  have report : ∀ lane ∈ lanes batch, LaneReport config p lane := fun lane member =>
    ⟨c.laneAt (sameBatch ▸ member), fun quiescent allDone =>
      c.allEnded quiescent allDone (sameBatch ▸ member)⟩
  refine ⟨?_, lanes_perm batch, InMemoryOutboxRepository.nodup_pending iterated answered,
    fun key => ⟨?_, ?_⟩, ?_, kept, ?_⟩
  · intro m member
    exact InMemoryOutboxRepository.mem_pending iterated answered member
  · exact sameBatch ▸ c.book.keyCalls_eq key
  · by_cases routed : withKey key batch = []
    · rw [routed]
      exact ⟨(ended_nil p.shared).laneAt, fun _ _ => ⟨0, ended_nil p.shared⟩⟩
    · obtain ⟨m, member⟩ := List.exists_mem_of_ne_nil _ routed
      obtain ⟨claimed, keyed⟩ := List.mem_filter.mp member
      exact report _ (withKey_mem_lanes claimed (of_decide_eq_true keyed))
  · intro m member keyless
    exact report [m] (singleton_mem_lanes member keyless)
  · intro quiescent allDone
    exact sameBatch ▸ c.published_eq quiescent allDone

end Guarantees

/-! ## A run with a failing lane

Messages 1 and 2 share a key, message 3 has none; the publisher refuses message 1. -/

/-- Two lanes at a time, three attempts a message, one second between them. -/
def twoLanes : DispatchConfig where
  retry := { maxAttempts := 3, backoff := .fixed 1000000000 }
  concurrency := 2

def keyed (id : Uuid) (now : Time) (key : Option String) : OutboxMessage :=
  .new id now { messageId := id, topic := "orders", key := key }

/-- The three inserts. -/
def inserts : List (Action DispatchChoice OutboxArrival) :=
  [.arrive (.insert (keyed 1 0 (some "a"))), .arrive (.insert (keyed 2 0 (some "a"))),
    .arrive (.insert (keyed 3 0 none))]

/-- Both lanes, one operation of each at a time. -/
def bothLanes : List (Action DispatchChoice OutboxArrival) :=
  [.arrive .nextLane, .arrive .nextLane, .step 0 {}, .step 1 {},
    .step 0 { published := .error (.publish "down") }, .step 1 {}, .step 0 {}, .step 1 {},
    .step 0 {}, .step 1 {}, .step 0 {}]

/-- The run reports the one message it delivered; message 2 is stored as it was claimed. -/
theorem dispatch_lanes_failing : ∃ p₀ p₁ p : DispatchPool,
    (system twoLanes).Reaches (Single twoLanes) (initial 30) p₀ ∧
    (system twoLanes).step p₀ (.arrive (.dispatch 10 0 [1, 2, 3])) = some p₁ ∧
    (system twoLanes).Reaches (Single twoLanes) p₁ p ∧ p.Quiescent ∧
    LaneReport twoLanes p (withKey "a" p₁.shared.run.claimed) ∧
    (collect p.shared.run.outcomes).published = 1 ∧
    (p₁.shared.run.claimed.filter fun m => IsPublished p.shared m).length = 1 := by
  have run : (((system twoLanes).exec (initial 30) inserts).any fun p₀ =>
      decide (Single twoLanes p₀ (.arrive (.dispatch 10 0 [1, 2, 3]))) &&
        ((system twoLanes).step p₀ (.arrive (.dispatch 10 0 [1, 2, 3]))).any fun p₁ =>
          decide ((system twoLanes).Along (Single twoLanes) p₁ bothLanes) &&
            ((system twoLanes).exec p₁ bothLanes).any fun p =>
              decide (p.Quiescent ∧ p.shared.run.waiting = [] ∧
                p.shared.runs = p₁.shared.runs ∧
                (collect p.shared.run.outcomes).published = 1)) = true := by
    decide +kernel
  obtain ⟨p₀, reached, found⟩ := System.exists_reaches_of_exec
    (C := Single twoLanes) (by decide +kernel) run
  simp only [Bool.and_eq_true, Option.any_eq_true, decide_eq_true_eq] at found
  obtain ⟨single, p₁, claims, along, p, ran, quiescent, allDone, sameRun, count⟩ := found
  have later := System.reaches_of_exec along ran
  have guarantees := dispatch_lanes reached single claims later sameRun rfl
  exact ⟨p₀, p₁, p, reached, claims, later, quiescent, (guarantees.2.2.2.1 "a").2, count,
    (guarantees.2.2.2.2.2.2 quiescent allDone).symm.trans count⟩

end OutboxDispatcher

end Pharos
